import Gatehouse.Proofs.Config
import Gatehouse.Proofs.Text.Pieces

/-!
Which variables give settings, and what is wrong with others.

Twelve things are checked of variables, one after the other. Each check demands something of one
variable or of a few (`Check.Demands`) and has a fault for what it finds instead
(`Check.Fails`). There are settings when nothing fails, and else the first fault is reported,
whatever is wrong behind it.

* `StandsFor.bind` and `standsFor_unless` are the account of checks in a row.
* `standsFor_ofVariables`: the fault that is reported is that of the first check that fails.
* `variables_decide_settings` says which variables are accepted, which settings they give, which
  fault others are refused for, and that no other variable matters.
-/

namespace Gatehouse

open Text Checks

namespace Variables

variable {vars : Variables} {name value : String}

/-! ### What single variables say -/

/-- A variable is unset, or a number within a bound. -/
def Fits (vars : Variables) (name : String) (bound : Nat) : Prop :=
  ∀ value, vars.value? name = some value → ∃ n, Decimal.Spells value n ∧ n ≤ bound

/-- The number that a variable gives, with a default for an unset one. -/
def Gives (vars : Variables) (name : String) (default n : Nat) : Prop :=
  match vars.value? name with
  | none => n = default
  | some value => Decimal.Spells value n

/-- The texts that a variable lists between commas, with a default for an unset one. -/
def Lists (vars : Variables) (name : String) (default texts : List String) : Prop :=
  match vars.value? name with
  | none => texts = default
  | some value => ∃ parts, parts ≠ [] ∧ (∀ p ∈ parts, ',' ∉ p.toList) ∧
      ",".intercalate parts = value ∧ texts = (parts.map trim).filter (· ≠ "")

/-- A variable says yes. -/
def Agrees (vars : Variables) (name : String) : Prop :=
  ∃ value, vars.value? name = some value ∧ lowerAscii (trim value) ∈ ["1", "true", "yes"]

/-- The variables that tell of a provider. -/
def providerNames : List String :=
  ["OAUTH_AUTHORIZE_URL", "OAUTH_TOKEN_URL", "OAUTH_CLIENT_ID"]

/-- The variables that are read. -/
def known : List String :=
  ["PORT", "REDIS_URL", "RATE_LIMIT_PREFIX", "RATE_LIMIT_REQUESTS", "RATE_LIMIT_BURST",
    "RATE_LIMIT_WINDOW_SECS", "RATE_LIMIT_SKIP_PATHS", "WORKSPACE_RATE_LIMIT", "STORE_TIMEOUT_MS",
    "AUTH_TIMEOUT_MS", "ALLOW_MOCK_AUTH", "TRUST_FORWARDED_PROTO", "JWT_SECRET", "JWT_ISSUER",
    "JWT_AUDIENCE", "OAUTH_CLIENT_SECRET", "OAUTH_SCOPES", "POST_LOGIN_PATH"] ++ providerNames

theorem fits_iff {bound : Nat} : vars.Fits name bound ↔
    ∀ value cause, vars.value? name = some value → ¬ Decimal.Misspells bound value cause := by
  refine forall_congr' fun value => ?_
  cases read : Decimal.readNat bound value with
  | ok n =>
      have spelled := Decimal.readNat_eq_ok_iff.mp read
      refine ⟨fun _ cause _ misspelled => ?_, fun _ _ => ⟨n, spelled⟩⟩
      cases read.symm.trans (Decimal.readNat_eq_error_iff.mpr misspelled)
  | error cause =>
      have misspelled := Decimal.readNat_eq_error_iff.mp read
      refine ⟨fun fits _ set => ?_, fun passes set => absurd misspelled (passes cause set)⟩
      obtain ⟨n, spelled⟩ := fits set
      cases read.symm.trans (Decimal.readNat_eq_ok_iff.mpr spelled)

/-- A number that is read against a bound is the one that is given. -/
theorem gives_of_read {bound default n : Nat} {fault : Decimal.Fault → ConfigFault}
    (read : (match vars.value? name with
      | none => Except.ok default
      | some value => (Decimal.readNat bound value).mapError fault) = .ok n) :
    vars.Gives name default n := by
  unfold Gives
  cases set : vars.value? name with
  | none =>
      rw [set] at read
      cases read
      rfl
  | some value =>
      rw [set] at read
      exact (Decimal.readNat_eq_ok_iff.mp (mapError_eq_ok.mp read)).1

theorem gives_of_number {default n : Nat} (read : vars.number name default = .ok n) :
    vars.Gives name default n :=
  gives_of_read read

theorem lists_parts (vars : Variables) (name : String) (default : List String) :
    vars.Lists name default (vars.parts name default) := by
  unfold parts Lists
  cases vars.value? name with
  | none => rfl
  | some value =>
      refine ⟨split ',' value, ?_, ?_, ?_, ?_⟩
      · simpa [split] using pieces_ne_nil ',' value.toList
      · intro p mem
        obtain ⟨piece, cut, rfl⟩ := List.mem_map.mp mem
        rw [String.toList_ofList]
        exact not_mem_of_mem_pieces cut
      · rw [← String.toList_inj, String.toList_intercalate, split, List.map_map]
        simpa [Function.comp_def] using intercalate_pieces ',' value.toList
      · refine List.filter_congr fun p _ => ?_
        rw [Bool.eq_iff_iff, Bool.not_eq_true', decide_eq_true_iff, ← Bool.not_eq_true,
          String.isEmpty_iff]

end Variables

namespace Config

/-! ### Checks in a row -/

/-- What is checked of variables. -/
inductive Check where
  | port
  /-- A number of 64 bits. -/
  | number (name : String)
  /-- Windows have a length. -/
  | window
  /-- Someone says whose sessions are valid. -/
  | validator
  /-- A provider is told of by all of its variables or by none. -/
  | provider
  /-- Signed sessions come from a provider. -/
  | signer
  | landing
  deriving DecidableEq, Repr

/-- The checks in the order in which they are made. -/
def Check.inOrder : List Check :=
  [.port, .number "RATE_LIMIT_REQUESTS", .number "RATE_LIMIT_BURST",
    .number "RATE_LIMIT_WINDOW_SECS", .window, .number "WORKSPACE_RATE_LIMIT",
    .number "STORE_TIMEOUT_MS", .number "AUTH_TIMEOUT_MS", .validator, .provider, .signer, .landing]

/-- The check fails for variables, with a fault. -/
inductive Check.Fails (vars : Variables) : Check → ConfigFault → Prop
  | port {value : String} {cause : Decimal.Fault} : vars.value? "PORT" = some value →
      Decimal.Misspells Decimal.max16 value cause → Fails vars .port (.port cause)
  | number {name value : String} {cause : Decimal.Fault} : vars.value? name = some value →
      Decimal.Misspells Decimal.max64 value cause → Fails vars (.number name) (.number name cause)
  | window {value : String} : vars.value? "RATE_LIMIT_WINDOW_SECS" = some value →
      Decimal.Spells value 0 → Fails vars .window .zeroWindow
  | validator : vars.value? "JWT_SECRET" = none → ¬ vars.Agrees "ALLOW_MOCK_AUTH" →
      Fails vars .validator .noValidator
  | provider {set unset : String} : set ∈ Variables.providerNames → vars.value? set ≠ none →
      unset ∈ Variables.providerNames → vars.value? unset = none →
      Fails vars .provider .partialProvider
  | signer {unset : String} : vars.value? "JWT_SECRET" ≠ none → unset ∈ Variables.providerNames →
      vars.value? unset = none → Fails vars .signer .secretWithoutProvider
  | landing {value : String} : vars.value? "POST_LOGIN_PATH" = some value →
      value.toList.head? ≠ some '/' → Fails vars .landing .foreignLanding

/-- The check finds no fault. -/
def Check.Passes (vars : Variables) (check : Check) : Prop :=
  ∀ f, ¬ check.Fails vars f

/-- The fault of the first of some checks that fails. -/
inductive FirstFails (vars : Variables) : List Check → ConfigFault → Prop
  | here {check : Check} {rest : List Check} {f : ConfigFault} : check.Fails vars f →
      FirstFails vars (check :: rest) f
  | later {check : Check} {rest : List Check} {f : ConfigFault} : check.Passes vars →
      FirstFails vars rest f → FirstFails vars (check :: rest) f

variable {vars : Variables} {check : Check} {checks rest : List Check} {f : ConfigFault}
  {c : Config}

theorem firstFails_iff : FirstFails vars checks f ↔ ∃ earlier check later,
    checks = earlier ++ check :: later ∧ check.Fails vars f ∧ ∀ c ∈ earlier, c.Passes vars := by
  constructor
  · intro first
    induction first with
    | here fails => exact ⟨[], _, _, rfl, fails, fun _ hc => absurd hc List.not_mem_nil⟩
    | later passes _ ih =>
        obtain ⟨earlier, check, later, rfl, fails, others⟩ := ih
        exact ⟨_ :: earlier, check, later, rfl, fails, List.forall_mem_cons.mpr ⟨passes, others⟩⟩
  · rintro ⟨earlier, check, later, rfl, fails, others⟩
    induction earlier with
    | nil => exact .here fails
    | cons c earlier ih =>
        obtain ⟨passes, others⟩ := List.forall_mem_cons.mp others
        exact .later passes (ih others)

theorem firstFails_append : FirstFails vars (checks ++ rest) f ↔
    FirstFails vars checks f ∨ (∀ c ∈ checks, c.Passes vars) ∧ FirstFails vars rest f := by
  induction checks with
  | nil =>
      constructor
      · intro first
        exact .inr ⟨fun _ hc => absurd hc List.not_mem_nil, first⟩
      · rintro (none | ⟨-, first⟩)
        · cases none
        · exact first
  | cons check checks ih =>
      constructor
      · rintro (fails | ⟨passes, first⟩)
        · exact .inl (.here fails)
        · rcases ih.mp first with first | ⟨others, first⟩
          · exact .inl (.later passes first)
          · exact .inr ⟨List.forall_mem_cons.mpr ⟨passes, others⟩, first⟩
      · rintro ((fails | ⟨passes, first⟩) | ⟨others, first⟩)
        · exact .here fails
        · exact .later passes (ih.mpr (.inl first))
        · obtain ⟨passes, others⟩ := List.forall_mem_cons.mp others
          exact .later passes (ih.mpr (.inr ⟨others, first⟩))

/-- Some check fails first where some check fails. -/
theorem exists_firstFails : (∃ f, FirstFails vars checks f) ↔ ¬ ∀ c ∈ checks, c.Passes vars := by
  induction checks with
  | nil =>
      constructor
      · rintro ⟨f, ⟨⟩⟩
      · intro fails
        exact absurd (fun _ hc => absurd hc List.not_mem_nil) fails
  | cons check checks ih =>
      rw [List.forall_mem_cons]
      constructor
      · rintro ⟨f, fails | ⟨-, first⟩⟩ ⟨passes, others⟩
        · exact passes f fails
        · exact ih.mp ⟨f, first⟩ others
      · intro fails
        by_cases passes : check.Passes vars
        · obtain ⟨f, first⟩ := ih.mpr fun others => fails ⟨passes, others⟩
          exact ⟨f, .later passes first⟩
        · obtain ⟨f, here⟩ := not_forall_not.mp passes
          exact ⟨f, .here here⟩

/-- A value that some checks stand for: it is a fault exactly where one of them fails. -/
def StandsFor (vars : Variables) (checks : List Check) {α : Type} (x : Except ConfigFault α) :
    Prop :=
  ∀ f, x = .error f ↔ FirstFails vars checks f

section StandsFor

variable {α β : Type} {x : Except ConfigFault α} {k : α → Except ConfigFault β}

theorem StandsFor.single (h : ∀ f, x = .error f ↔ check.Fails vars f) :
    StandsFor vars [check] x := by
  intro f
  rw [h f]
  constructor
  · exact .here
  · rintro (fails | ⟨-, later⟩)
    · exact fails
    · cases later

theorem standsFor_pure (a : α) : StandsFor vars [] (pure a : Except ConfigFault α) := by
  intro f
  constructor
  · intro fails
    cases fails
  · intro fails
    cases fails

theorem StandsFor.passes (h : StandsFor vars checks x) {a : α} (ok : x = .ok a) :
    ∀ c ∈ checks, c.Passes vars := by
  by_contra fails
  obtain ⟨f, first⟩ := exists_firstFails.mpr fails
  cases ok.symm.trans ((h f).mpr first)

/-- Checks that are made one after the other. -/
theorem StandsFor.bind (h : StandsFor vars checks x)
    (next : ∀ a, x = .ok a → StandsFor vars rest (k a)) :
    StandsFor vars (checks ++ rest) (x >>= k) := by
  intro f
  rw [firstFails_append]
  cases ok : x with
  | error e =>
      have first := (h e).mp ok
      constructor
      · intro same
        cases same
        exact .inl first
      · rintro (another | ⟨passes, -⟩)
        · cases ok.symm.trans ((h f).mpr another)
          rfl
        · exact absurd passes (exists_firstFails.mp ⟨e, first⟩)
  | ok a =>
      have passes := h.passes ok
      show k a = .error f ↔ _
      rw [next a ok f]
      constructor
      · intro first
        exact .inr ⟨passes, first⟩
      · rintro (fails | ⟨-, first⟩)
        · exact absurd passes (exists_firstFails.mp ⟨f, fails⟩)
        · exact first

/-- A check that throws a fault. -/
theorem standsFor_unless {p : Prop} [Decidable p] {e : ConfigFault}
    {k : Unit → Except ConfigFault β} (h : ∀ f, check.Fails vars f ↔ p ∧ f = e)
    (next : ¬ p → StandsFor vars rest (k ())) :
    StandsFor vars (check :: rest) (if p then throw e >>= k else k ()) := by
  intro f
  by_cases fails : p
  · have thrown : ((throw e : Except ConfigFault Unit) >>= k) = .error e := rfl
    rw [if_pos fails, thrown, Except.error.injEq, eq_comm]
    constructor
    · intro same
      exact .here ((h f).mpr ⟨fails, same⟩)
    · rintro (here | ⟨passes, -⟩)
      · exact ((h f).mp here).2
      · exact absurd ((h e).mpr ⟨fails, rfl⟩) (passes e)
  · rw [if_neg fails, next fails f]
    constructor
    · intro first
      exact .later (fun f here => fails ((h f).mp here).1) first
    · rintro (here | ⟨-, first⟩)
      · exact absurd ((h f).mp here).1 fails
      · exact first

end StandsFor

/-! ### The checks that are made -/

/-- A number that is read against a bound. -/
theorem standsFor_read {name : String} {bound default : Nat} {fault : Decimal.Fault → ConfigFault}
    (h : ∀ f, check.Fails vars f ↔ ∃ value cause, vars.value? name = some value ∧
      Decimal.Misspells bound value cause ∧ fault cause = f) :
    StandsFor vars [check] (match vars.value? name with
      | none => .ok default
      | some value => (Decimal.readNat bound value).mapError fault) := by
  refine .single fun f => ?_
  rw [h f]
  cases set : vars.value? name with
  | none =>
      constructor
      · intro fails
        cases fails
      · rintro ⟨_, _, given, -⟩
        cases given
  | some value =>
      rw [mapError_eq_error]
      constructor
      · rintro ⟨cause, read, same⟩
        exact ⟨value, cause, rfl, Decimal.readNat_eq_error_iff.mp read, same⟩
      · rintro ⟨_, cause, given, misspelled, same⟩
        cases given
        exact ⟨cause, Decimal.readNat_eq_error_iff.mpr misspelled, same⟩

theorem fails_port_iff (f : ConfigFault) : Check.Fails vars .port f ↔
    ∃ value cause, vars.value? "PORT" = some value ∧
      Decimal.Misspells Decimal.max16 value cause ∧ .port cause = f := by
  constructor
  · intro fails
    cases fails with
    | port given misspelled => exact ⟨_, _, given, misspelled, rfl⟩
  · rintro ⟨_, _, given, misspelled, rfl⟩
    exact .port given misspelled

theorem fails_number_iff (name : String) (f : ConfigFault) : Check.Fails vars (.number name) f ↔
    ∃ value cause, vars.value? name = some value ∧
      Decimal.Misspells Decimal.max64 value cause ∧ .number name cause = f := by
  constructor
  · intro fails
    cases fails with
    | number given misspelled => exact ⟨_, _, given, misspelled, rfl⟩
  · rintro ⟨_, _, given, misspelled, rfl⟩
    exact .number given misspelled

theorem standsFor_port : StandsFor vars [.port] vars.port :=
  standsFor_read fails_port_iff

theorem standsFor_number (name : String) (default : Nat) :
    StandsFor vars [.number name] (vars.number name default) :=
  standsFor_read (fails_number_iff name)

theorem standsFor_windowSeconds :
    StandsFor vars [.number "RATE_LIMIT_WINDOW_SECS", .window] vars.windowSeconds := by
  refine (standsFor_number "RATE_LIMIT_WINDOW_SECS" 60).bind fun seconds read => ?_
  refine standsFor_unless (fun f => ?_) fun _ => standsFor_pure seconds
  have gives := Variables.gives_of_number read
  unfold Variables.Gives at gives
  constructor
  · intro fails
    cases fails with
    | window given zero =>
        rw [given] at gives
        exact ⟨gives.unique zero, rfl⟩
  · rintro ⟨rfl, rfl⟩
    split at gives
    · cases gives
    · rename_i value given
      exact .window given gives

theorem standsFor_secret : StandsFor vars [.validator] vars.secret := by
  unfold Variables.secret
  refine standsFor_unless (fun f => ?_) fun _ => standsFor_pure _
  rw [Bool.not_eq_true', ← Bool.not_eq_true, Variables.flag_iff]
  constructor
  · intro fails
    cases fails with
    | validator unset silent => exact ⟨⟨unset, silent⟩, rfl⟩
  · rintro ⟨⟨unset, silent⟩, rfl⟩
    exact .validator unset silent

/-- No provider is told of in part, and what is there or is not is so for all its variables. -/
theorem standsFor_provider : StandsFor vars [.provider] vars.provider := by
  refine .single fun f => ?_
  have fails : Check.Fails vars .provider f ↔
      (∃ set ∈ Variables.providerNames, vars.value? set ≠ none) ∧
        (∃ unset ∈ Variables.providerNames, vars.value? unset = none) ∧ .partialProvider = f := by
    constructor
    · intro fails
      cases fails with
      | provider one set other unset => exact ⟨⟨_, one, set⟩, ⟨_, other, unset⟩, rfl⟩
    · rintro ⟨⟨_, one, set⟩, ⟨_, other, unset⟩, rfl⟩
      exact .provider one set other unset
  rw [fails, Variables.provider]
  simp only [Variables.providerNames, List.mem_cons, List.not_mem_nil, or_false,
    exists_eq_or_imp, exists_eq_left]
  cases vars.value? "OAUTH_AUTHORIZE_URL" <;> cases vars.value? "OAUTH_TOKEN_URL" <;>
    cases vars.value? "OAUTH_CLIENT_ID" <;> simp

theorem standsFor_landing : StandsFor vars [.landing] vars.landing := by
  unfold Variables.landing
  refine standsFor_unless (fun f => ?_) fun _ => standsFor_pure _
  constructor
  · intro fails
    cases fails with
    | landing given foreign =>
        rw [given]
        exact ⟨foreign, rfl⟩
  · rintro ⟨foreign, rfl⟩
    cases set : vars.value? "POST_LOGIN_PATH" with
    | none =>
        rw [set] at foreign
        exact absurd rfl foreign
    | some value =>
        rw [set] at foreign
        exact .landing set foreign

/-- Signed sessions without a provider are a fault, once the provider was read. -/
theorem fails_signer_iff {provider : Option OAuth.Settings} (given : vars.GivesProvider provider) :
    Check.Fails vars .signer f ↔
      ((vars.value? "JWT_SECRET").isSome ∧ provider.isNone) ∧ f = .secretWithoutProvider := by
  constructor
  · intro fails
    cases fails with
    | signer signed mem unset =>
        refine ⟨⟨Option.isSome_iff_ne_none.mpr signed, ?_⟩, rfl⟩
        cases given with
        | unset _ _ _ => rfl
        | set authorizeUrl tokenUrl clientId =>
            simp only [Variables.providerNames, List.mem_cons, List.not_mem_nil, or_false] at mem
            rcases mem with rfl | rfl | rfl
            · cases unset.symm.trans authorizeUrl
            · cases unset.symm.trans tokenUrl
            · cases unset.symm.trans clientId
  · rintro ⟨⟨signed, ungiven⟩, rfl⟩
    cases given with
    | unset authorizeUrl _ _ =>
        exact .signer (Option.isSome_iff_ne_none.mp signed) List.mem_cons_self authorizeUrl
    | set _ _ _ => cases ungiven

/-- **The fault that is reported is that of the first check that fails.** -/
theorem standsFor_ofVariables : StandsFor vars Check.inOrder (ofVariables vars) := by
  unfold ofVariables
  refine StandsFor.bind standsFor_port fun port _ => ?_
  refine StandsFor.bind (standsFor_number _ _) fun limit _ => ?_
  refine StandsFor.bind (standsFor_number _ _) fun burst _ => ?_
  refine StandsFor.bind standsFor_windowSeconds fun seconds _ => ?_
  refine StandsFor.bind (standsFor_number _ _) fun workspaceLimit _ => ?_
  refine StandsFor.bind (standsFor_number _ _) fun storeMillis _ => ?_
  refine StandsFor.bind (standsFor_number _ _) fun authMillis _ => ?_
  refine StandsFor.bind standsFor_secret fun secret allowed => ?_
  refine StandsFor.bind standsFor_provider fun provider given => ?_
  obtain ⟨rfl, -⟩ := Variables.secret_eq_ok_iff.mp allowed
  refine standsFor_unless (fun f => fails_signer_iff (Variables.provider_eq_ok_iff.mp given))
    fun _ => ?_
  exact StandsFor.bind standsFor_landing fun landing _ => standsFor_pure _

/-! ### What is accepted -/

/-- What a check demands of variables. -/
def Check.Demands (vars : Variables) : Check → Prop
  | .port => vars.Fits "PORT" Decimal.max16
  | .number name => vars.Fits name Decimal.max64
  | .window =>
      ∀ value, vars.value? "RATE_LIMIT_WINDOW_SECS" = some value → ¬ Decimal.Spells value 0
  | .validator => vars.value? "JWT_SECRET" ≠ none ∨ vars.Agrees "ALLOW_MOCK_AUTH"
  | .provider => (∀ name ∈ Variables.providerNames, vars.value? name ≠ none) ∨
      ∀ name ∈ Variables.providerNames, vars.value? name = none
  | .signer => vars.value? "JWT_SECRET" ≠ none →
      ∀ name ∈ Variables.providerNames, vars.value? name ≠ none
  | .landing =>
      ∀ value, vars.value? "POST_LOGIN_PATH" = some value → value.toList.head? = some '/'

/-- A number that is read against a bound passes if it fits. -/
theorem Check.passes_iff_fits {name : String} {bound : Nat} {fault : Decimal.Fault → ConfigFault}
    (h : ∀ f, check.Fails vars f ↔ ∃ value cause, vars.value? name = some value ∧
      Decimal.Misspells bound value cause ∧ fault cause = f) :
    check.Passes vars ↔ vars.Fits name bound := by
  rw [Variables.fits_iff]
  constructor
  · intro passes value cause given misspelled
    exact passes _ ((h _).mpr ⟨value, cause, given, misspelled, rfl⟩)
  · intro fits f fails
    obtain ⟨value, cause, given, misspelled, -⟩ := (h f).mp fails
    exact fits value cause given misspelled

theorem Check.passes_iff : check.Passes vars ↔ check.Demands vars := by
  cases check with
  | port => exact passes_iff_fits fails_port_iff
  | number name => exact passes_iff_fits (fails_number_iff name)
  | window =>
      constructor
      · intro passes value given zero
        exact passes _ (.window given zero)
      · rintro demands f fails
        cases fails with
        | window given zero => exact demands _ given zero
  | validator =>
      constructor
      · intro passes
        by_contra no
        rw [Demands, not_or, not_not] at no
        exact passes _ (.validator no.1 no.2)
      · rintro demands f fails
        cases fails with
        | validator unset silent => exact demands.elim (absurd unset) silent
  | provider =>
      constructor
      · intro passes
        by_contra no
        simp only [Demands, not_or, not_forall, not_not] at no
        obtain ⟨⟨_, other, unset⟩, _, one, set⟩ := no
        exact passes _ (.provider one set other unset)
      · rintro demands f fails
        cases fails with
        | provider one set other unset =>
            exact demands.elim (fun all => all _ other unset) fun unset => set (unset _ one)
  | signer =>
      constructor
      · intro passes signed name mem unset
        exact passes _ (.signer signed mem unset)
      · rintro demands f fails
        cases fails with
        | signer signed mem unset => exact demands signed _ mem unset
  | landing =>
      constructor
      · intro passes value given
        by_contra foreign
        exact passes _ (.landing given foreign)
      · rintro demands f fails
        cases fails with
        | landing given foreign => exact foreign (demands _ given)

theorem StandsFor.exists_ok_iff {α : Type} {x : Except ConfigFault α}
    (h : StandsFor vars checks x) : (∃ a, x = .ok a) ↔ ∀ check ∈ checks, check.Demands vars := by
  constructor
  · rintro ⟨a, ok⟩ check mem
    exact Check.passes_iff.mp (h.passes ok check mem)
  · intro demands
    cases ok : x with
    | ok a => exact ⟨a, rfl⟩
    | error f =>
        have first := (h f).mp ok
        exact absurd (fun c mem => Check.passes_iff.mpr (demands c mem))
          (exists_firstFails.mp ⟨f, first⟩)

/-! ### What the settings are -/

/-- The settings are those that variables give, with the defaults for what is unset. -/
structure Follows (vars : Variables) (c : Config) : Prop where
  port : vars.Gives "PORT" 3000 c.port
  redisUrl : c.redisUrl = vars.value? "REDIS_URL"
  keyFront : c.keyFront = (vars.value? "RATE_LIMIT_PREFIX").getD "flowra:ratelimit:"
  limit : vars.Gives "RATE_LIMIT_REQUESTS" 100 c.limit
  burst : vars.Gives "RATE_LIMIT_BURST" 20 c.burst
  window : ∃ seconds, vars.Gives "RATE_LIMIT_WINDOW_SECS" 60 seconds ∧
    c.window = Span.seconds seconds
  skipPaths : vars.Lists "RATE_LIMIT_SKIP_PATHS" ["/health"] c.skipPaths
  workspaceLimit : vars.Gives "WORKSPACE_RATE_LIMIT" 1000 c.workspaceLimit
  storeDeadline : ∃ millis, vars.Gives "STORE_TIMEOUT_MS" 250 millis ∧
    c.storeDeadline = Span.millis millis
  authDeadline : ∃ millis, vars.Gives "AUTH_TIMEOUT_MS" 2000 millis ∧
    c.authDeadline = Span.millis millis
  allowMock : c.allowMock = true ↔ vars.Agrees "ALLOW_MOCK_AUTH"
  trustProxy : c.trustProxy = true ↔ vars.Agrees "TRUST_FORWARDED_PROTO"
  jwtSecret : c.jwtSecret = vars.value? "JWT_SECRET"
  jwtIssuer : c.jwtIssuer = vars.value? "JWT_ISSUER"
  jwtAudience : c.jwtAudience = vars.value? "JWT_AUDIENCE"
  provider : vars.GivesProvider c.provider
  landing : c.landing = (vars.value? "POST_LOGIN_PATH").getD "/workspaces"

theorem Reads.follows (h : Reads vars c) : Follows vars c := by
  obtain ⟨seconds, readSeconds, -, window⟩ := h.window
  obtain ⟨store, readStore, storeDeadline⟩ := h.storeDeadline
  obtain ⟨auth, readAuth, authDeadline⟩ := h.authDeadline
  constructor
  case port => exact Variables.gives_of_read h.port
  case limit => exact Variables.gives_of_number h.limit
  case burst => exact Variables.gives_of_number h.burst
  case window => exact ⟨seconds, Variables.gives_of_number readSeconds, window⟩
  case workspaceLimit => exact Variables.gives_of_number h.workspaceLimit
  case storeDeadline => exact ⟨store, Variables.gives_of_number readStore, storeDeadline⟩
  case authDeadline => exact ⟨auth, Variables.gives_of_number readAuth, authDeadline⟩
  case skipPaths => exact h.skipPaths ▸ Variables.lists_parts vars _ _
  case allowMock => exact h.allowMock ▸ Variables.flag_iff
  case trustProxy => exact h.trustProxy ▸ Variables.flag_iff
  case redisUrl => exact h.redisUrl
  case keyFront => exact h.keyFront
  case jwtSecret => exact h.jwtSecret
  case jwtIssuer => exact h.jwtIssuer
  case jwtAudience => exact h.jwtAudience
  case provider => exact h.provider
  case landing => exact h.landing

/-! ### What does not matter -/

section Same

variable {vars' : Variables}

theorem number_congr {name : String} (same : vars'.value? name = vars.value? name)
    (default : Nat) : vars'.number name default = vars.number name default := by
  rw [Variables.number, Variables.number, same]

theorem flag_congr {name : String} (same : vars'.value? name = vars.value? name) :
    vars'.flag name = vars.flag name := by
  rw [Variables.flag, Variables.flag, same]

theorem parts_congr {name : String} (same : vars'.value? name = vars.value? name)
    (default : List String) : vars'.parts name default = vars.parts name default := by
  rw [Variables.parts, Variables.parts, same]

/-- Settings are a matter of the variables that are known, and of what they are when they are
not blank. -/
theorem ofVariables_congr (same : ∀ name ∈ Variables.known, vars'.value? name = vars.value? name) :
    ofVariables vars' = ofVariables vars := by
  simp only [Variables.known, Variables.providerNames, List.forall_mem_append,
    List.forall_mem_cons] at same
  obtain ⟨⟨port, redisUrl, keyFront, limit, burst, seconds, skipPaths, workspaceLimit, storeMillis,
    authMillis, mock, proxy, secret, issuer, audience, clientSecret, scopes, landing, -⟩,
    authorizeUrl, tokenUrl, clientId, -⟩ := same
  have port' : vars'.port = vars.port := by
    rw [Variables.port, Variables.port, port]
  have window' : vars'.windowSeconds = vars.windowSeconds := by
    rw [Variables.windowSeconds, Variables.windowSeconds, number_congr seconds]
  have secret' : vars'.secret = vars.secret := by
    rw [Variables.secret, Variables.secret, secret, flag_congr mock]
  have provider' : vars'.provider = vars.provider := by
    rw [Variables.provider, Variables.provider, authorizeUrl, tokenUrl, clientId, clientSecret,
      scopes]
  have landing' : vars'.landing = vars.landing := by
    rw [Variables.landing, Variables.landing, landing]
  rw [ofVariables, ofVariables, port', number_congr limit, number_congr burst, window',
    number_congr workspaceLimit, number_congr storeMillis, number_congr authMillis, secret',
    provider', landing', redisUrl, keyFront, parts_congr skipPaths, flag_congr mock, issuer,
    audience, flag_congr proxy]

end Same

/-- **Variables decide settings.** There are settings exactly where each of twelve checks finds
what it demands, and they are what the variables give. Other variables are refused for what is
wrong with the first of these checks that fails. No other variable matters, nor does a blank one. -/
theorem variables_decide_settings (vars : Variables) :
    ((∃ c, ofVariables vars = .ok c) ↔ ∀ check ∈ Check.inOrder, check.Demands vars) ∧
      (∀ c, ofVariables vars = .ok c → Follows vars c) ∧
      (∀ f, ofVariables vars = .error f ↔ ∃ earlier check later,
        Check.inOrder = earlier ++ check :: later ∧ check.Fails vars f ∧
          ∀ other ∈ earlier, other.Demands vars) ∧
      ∀ vars' : Variables, (∀ name ∈ Variables.known, vars'.value? name = vars.value? name) →
        ofVariables vars' = ofVariables vars := by
  refine ⟨standsFor_ofVariables.exists_ok_iff, ?_, ?_, ?_⟩
  · intro c accepted
    exact (ofVariables_eq_ok_iff.mp accepted).follows
  · intro f
    simp only [standsFor_ofVariables f, firstFails_iff, Check.passes_iff]
  · intro vars' same
    exact ofVariables_congr same

/-- Variables with blanks around what they say, and one that is not known. -/
def roomyVariables : Variables := fun name =>
  [("PORT", "+08080"), ("RATE_LIMIT_SKIP_PATHS", " /health ,, /metrics,"), ("JWT_ISSUER", " "),
    ("ALLOW_MOCK_AUTH", " Yes "), ("HOME", "/root")].lookup name

/-- Variables with two faults. -/
def faultyVariables : Variables := fun name =>
  [("RATE_LIMIT_BURST", "18446744073709551616x"), ("RATE_LIMIT_WINDOW_SECS", "0")].lookup name

/-- Roomy variables give settings, without the one that is not known as well, and of two faults
the first is told. -/
theorem roomy_variables_are_read :
    (∃ c, ofVariables roomyVariables = .ok c ∧ Follows roomyVariables c ∧ c.port = 8080 ∧
        c.skipPaths = ["/health", "/metrics"]) ∧
      ofVariables (fun name => if name = "HOME" then none else roomyVariables name) =
        ofVariables roomyVariables ∧
      ∃ earlier check later, Check.inOrder = earlier ++ check :: later ∧
        check.Fails faultyVariables (.number "RATE_LIMIT_BURST" .tooLarge) ∧
          ∀ other ∈ earlier, other.Demands faultyVariables := by
  obtain ⟨-, follows, -, others⟩ := variables_decide_settings roomyVariables
  obtain ⟨-, -, first, -⟩ := variables_decide_settings faultyVariables
  obtain ⟨c, accepted, seen⟩ := exists_of_view (ofVariables roomyVariables)
    (fun c => (c.port, c.skipPaths)) (8080, ["/health", "/metrics"]) (by decide +kernel)
  have refused : ofVariables faultyVariables = .error (.number "RATE_LIMIT_BURST" .tooLarge) := by
    decide +kernel
  rw [Prod.mk.injEq] at seen
  refine ⟨⟨c, accepted, follows c accepted, seen⟩, others _ fun name mem => ?_,
    (first _).mp refused⟩
  have ne : name ≠ "HOME" := by
    rintro rfl
    exact absurd mem (by decide)
  rw [Variables.value?, Variables.value?, if_neg ne]

end Config

end Gatehouse
