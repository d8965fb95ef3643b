import Gatehouse.Proofs.Auth.Directory
import Gatehouse.Proofs.Auth.Require

/-!
Users that are known by an external name.

A gate whose validator brings no id takes it from a directory, which others may ask as
well. Its visits are therefore read as queries among those of everyone (`Visit.IsToldBy`),
and what holds of the replies holds of the users that come in.

* `LooksUpIn.visit` is the account of one visit, `Course.exists_told` that of a course.
* `tellsApart_of_settles` takes what holds of the queries over to the visits.
* `ids_tell_names_apart`: ids and names stand for each other, for whoever asks the
  directory, and for the users that a gate takes from it.
-/

namespace Gatehouse.Auth

namespace Gate

open Directory

variable {ω : Type}

/-- The gate looks users up in a directory, which is a part of the state of the services. While
a token is validated, others may ask the directory too. -/
structure LooksUpIn (g : Gate ω) (directory : ω → Directory) : Prop where
  validator : ∀ validate, g.validator = some validate → ∀ clock token o,
    ∃ queries, directory (validate clock token o).2 = (directory o).after queries
  resolver : ∃ resolve, g.resolver = some resolve ∧ ∀ name username email o,
    (resolve name username email o).map id directory =
      Directory.resolver name username email (directory o)

/-- A token that comes to a gate, and the world that it meets. -/
structure Visit (ω : Type) where
  world : World ω
  token : String

/-- What comes of a visit. -/
def Visit.outcome (v : Visit ω) (g : Gate ω) : Except AuthFault User :=
  (g.authenticate v.token v.world).1

/-- The token is validated to claims without an id. -/
def Visit.Brings (v : Visit ω) (g : Gate ω) (claims : Claims) : Prop :=
  claims.id = Uuid.nil ∧ ∃ validate o, g.active? = some validate ∧
    validate v.world.clock v.token v.world.outside = (.ready claims, o)

/-- The course of some visits to a gate, one after the other. Anything may happen between them,
but the directory is only asked. -/
inductive Course (g : Gate ω) (directory : ω → Directory) :
    World ω → List (Visit ω) → World ω → Prop where
  | done {w : World ω} : Course g directory w [] w
  | visit {w w' : World ω} {visits : List (Visit ω)} (token : String) :
      Course g directory (g.authenticate token w).2 visits w' →
      Course g directory w (⟨w, token⟩ :: visits) w'
  | meanwhile {w v w' : World ω} {visits : List (Visit ω)} (queries : List Query) :
      directory v.outside = (directory w.outside).after queries →
      Course g directory v visits w' → Course g directory w visits w'

/-- What comes of visits whose tokens bring no id: without an external name they are turned
away, all others are let in with an id, which is the same for the same name only. -/
structure TellsApart (g : Gate ω) (visits : List (Visit ω)) : Prop where
  nameless : ∀ v ∈ visits, ∀ claims, v.Brings g claims → claims.externalId = "" →
    v.outcome g = .error (.unresolvable .emptyName)
  named : ∀ v ∈ visits, ∀ claims, v.Brings g claims → claims.externalId ≠ "" →
    ∃ id, v.outcome g = .ok { claims with id } ∧ id ≠ Uuid.nil
  apart : ∀ v ∈ visits, ∀ v' ∈ visits, ∀ claims claims' user user', v.Brings g claims →
    v'.Brings g claims' → v.outcome g = .ok user → v'.outcome g = .ok user' →
    (user.id = user'.id ↔ claims.externalId = claims'.externalId)

/-- What the directory is asked for the user of claims. -/
def queryOf (claims : Claims) : Query :=
  ⟨claims.externalId, claims.username, claims.email⟩

/-- If the token brings no id, what comes of the visit is decided by the reply to its query,
which is one of a run. -/
def Visit.IsToldBy (v : Visit ω) (g : Gate ω) (d : Directory) (queries : List Query) : Prop :=
  ∀ claims, v.Brings g claims → ∃ reply,
    (queryOf claims, reply) ∈ d.told queries ∧ v.outcome g = filledBy claims reply

variable {g : Gate ω} {directory : ω → Directory} {w w' : World ω} {visits : List (Visit ω)}
  {claims : Claims} {v : Visit ω}

/-- The mock that stands in for a validator does not ask the directory. -/
theorem LooksUpIn.active (looks : g.LooksUpIn directory) {validate : Validator ω}
    (active : g.active? = some validate) (clock : Clock) (token : String) (o : ω) :
    ∃ queries, directory (validate clock token o).2 = (directory o).after queries := by
  rcases active?_cases active with has | rfl
  · exact looks.validator validate has clock token o
  · exact ⟨[], rfl⟩

/-- Claims are filled by the reply to a query of their own, unless they have an id. -/
theorem LooksUpIn.fills (looks : g.LooksUpIn directory) (claims : Claims) (w : World ω) :
    ∃ queries,
      directory (g.resolve claims w).2.outside = (directory w.outside).after queries ∧
        (claims.id = Uuid.nil → ∃ reply,
          (queryOf claims, reply) ∈ (directory w.outside).told queries ∧
            (g.resolve claims w).1 = filledBy claims reply) := by
  by_cases missing : claims.id = Uuid.nil
  · obtain ⟨resolve, has, same⟩ := looks.resolver
    rcases asked : resolve claims.externalId claims.username claims.email w.outside with
      ⟨reply, o⟩
    have replied := same claims.externalId claims.username claims.email w.outside
    rw [asked] at replied
    have replied : (reply, directory o) = (directory w.outside).ask (queryOf claims) := replied
    rw [resolve_of_some missing has asked]
    refine ⟨[queryOf claims], ?_, fun _ => ⟨reply, ?_, rfl⟩⟩
    · rw [after, after, ← replied]
    · rw [told, ← replied]
      exact List.mem_cons_self
  · rw [resolve_of_known missing]
    exact ⟨[], rfl, fun missing' => absurd missing' missing⟩

/-- What brings claims is replied to by them. -/
theorem Visit.Brings.replied {validate : Validator ω} {reply : Reply AuthFault Claims} {o : ω}
    (brings : v.Brings g claims) (active : g.active? = some validate)
    (asked : validate v.world.clock v.token v.world.outside = (reply, o)) :
    reply = .ready claims := by
  obtain ⟨-, validate', o', active', asked'⟩ := brings
  cases active.symm.trans active'
  exact congrArg Prod.fst (asked.symm.trans asked')

/-- What is told to the first of two runs of queries, or to the second, is told to both. -/
theorem Visit.IsToldBy.append_right {d : Directory} {first : List Query} (h : v.IsToldBy g d first)
    (second : List Query) : v.IsToldBy g d (first ++ second) := by
  intro claims brings
  obtain ⟨reply, replied, outcome⟩ := h claims brings
  exact ⟨reply, told_append d first second ▸ List.mem_append_left _ replied, outcome⟩

theorem Visit.IsToldBy.append_left {d : Directory} {first second : List Query}
    (h : v.IsToldBy g (d.after first) second) : v.IsToldBy g d (first ++ second) := by
  intro claims brings
  obtain ⟨reply, replied, outcome⟩ := h claims brings
  exact ⟨reply, told_append d first second ▸ List.mem_append_right _ replied, outcome⟩

/-- **A visit only asks the directory**, and if its token brings no id, it is decided by the
reply to its own query. -/
theorem LooksUpIn.visit (looks : g.LooksUpIn directory) (token : String) (w : World ω) :
    ∃ queries,
      directory (g.authenticate token w).2.outside = (directory w.outside).after queries ∧
        Visit.IsToldBy ⟨w, token⟩ g (directory w.outside) queries := by
  cases has : g.active? with
  | none =>
      refine ⟨[], by simp [authenticate, has, after], ?_⟩
      rintro claims ⟨-, validate, o, active, -⟩
      exact absurd (has.symm.trans active) (by simp)
  | some validate =>
      rcases asked : validate w.clock token w.outside with ⟨reply, o⟩
      have checked := authenticate_of_some has asked
      obtain ⟨meanwhile, left⟩ := looks.active has w.clock token w.outside
      rw [asked] at left
      have left : directory o = (directory w.outside).after meanwhile := left
      cases reply with
      | ready claims =>
          obtain ⟨own, left', fills⟩ := looks.fills claims { w with outside := o }
          rw [left] at left' fills
          refine ⟨meanwhile ++ own, by rw [checked, after_append, ← left'],
            Visit.IsToldBy.append_left fun claims' brings => ?_⟩
          obtain rfl := Reply.ready.inj (brings.replied has asked)
          obtain ⟨reply, mem, filled⟩ := fills brings.1
          exact ⟨reply, mem, (congrArg Prod.fst checked).trans filled⟩
      | failed _ | stalled =>
          refine ⟨meanwhile, by rw [checked, ← left], fun claims brings => ?_⟩
          cases brings.replied has asked

/-- The visits of a course ask the directory like anyone else. -/
theorem Course.exists_told (course : Course g directory w visits w')
    (looks : g.LooksUpIn directory) : ∃ queries,
      directory w'.outside = (directory w.outside).after queries ∧
        ∀ v ∈ visits, v.IsToldBy g (directory w.outside) queries := by
  induction course with
  | done => exact ⟨[], rfl, fun v mem => absurd mem List.not_mem_nil⟩
  | @meanwhile w mid w' visits before asked _ ih =>
      obtain ⟨behind, left, told⟩ := ih
      rw [asked] at left told
      exact ⟨before ++ behind, by rw [after_append, left],
        fun v mem => Visit.IsToldBy.append_left (told v mem)⟩
  | @visit w w' visits token _ ih =>
      obtain ⟨before, asked, first⟩ := looks.visit token w
      obtain ⟨behind, left, told⟩ := ih
      rw [asked] at left told
      refine ⟨before ++ behind, by rw [after_append, left], fun v mem => ?_⟩
      rcases List.mem_cons.mp mem with rfl | later
      · exact first.append_right behind
      · exact Visit.IsToldBy.append_left (told v later)

/-- Where the queries of the visits are settled, the visits are told apart. -/
theorem tellsApart_of_settles {d : Directory} {queries : List Query}
    (told : ∀ v ∈ visits, v.IsToldBy g d queries) (settles : Settles (d.told queries)) :
    g.TellsApart visits := by
  -- A user has the id that was replied, as a nil one lets nobody in.
  have replied : ∀ v ∈ visits, ∀ claims user, v.Brings g claims → v.outcome g = .ok user →
      (queryOf claims, .ready user.id) ∈ d.told queries := by
    intro v mem claims user brings entered
    obtain ⟨reply, mem, outcome⟩ := told v mem claims brings
    by_cases nameless : claims.externalId = ""
    · obtain rfl := settles.nameless _ _ mem nameless
      cases outcome.symm.trans entered
    · obtain ⟨id, rfl, known⟩ := settles.named _ _ mem nameless
      rw [outcome, filledBy_ready known] at entered
      cases entered
      exact mem
  constructor
  case nameless =>
    intro v mem claims brings nameless
    obtain ⟨reply, mem, outcome⟩ := told v mem claims brings
    obtain rfl := settles.nameless _ _ mem nameless
    exact outcome
  case named =>
    intro v mem claims brings named
    obtain ⟨reply, mem, outcome⟩ := told v mem claims brings
    obtain ⟨id, rfl, known⟩ := settles.named _ _ mem named
    exact ⟨id, outcome.trans (filledBy_ready known), known⟩
  case apart =>
    intro v mem v' mem' claims claims' user user' brings brings' entered entered'
    exact settles.apart _ _ _ _ (replied v mem claims user brings entered)
      (replied v' mem' claims' user' brings' entered')

end Gate

open Directory Gate

/-- **Ids tell names apart.** A query without a name fails and leaves the directory as it is.
In a run of queries to a directory that was empty, its size is the number of names that it was
asked for; and if the ids differ that it has given out, two replies have the same id exactly
if they are for the same name. So it is for the users that a gate takes from the directory. -/
theorem ids_tell_names_apart (mint : Nat → Uuid) :
    (∀ (d : Directory) (q : Query), q.name = "" →
        d.ask q = (.failed (.unresolvable .emptyName), d)) ∧
      (∀ queries : List Query,
        ((empty mint).after queries).size =
            ((queries.map Query.name).toFinset.erase "").card ∧
          (Fresh mint ((empty mint).after queries).size → Settles ((empty mint).told queries))) ∧
      ∀ {ω : Type} (g : Gate ω) (directory : ω → Directory) (w w' : World ω)
        (visits : List (Visit ω)), g.LooksUpIn directory → directory w.outside = empty mint →
        Course g directory w visits w' → Fresh mint (directory w'.outside).size →
        g.TellsApart visits := by
  refine ⟨fun d q => ask_of_nameless, fun queries => ⟨size_after_empty mint queries,
    (orderly_empty mint).settles⟩, ?_⟩
  intro ω g directory w w' visits looks start course fresh
  obtain ⟨queries, left, told⟩ := course.exists_told looks
  rw [start] at left told
  rw [left] at fresh
  exact tellsApart_of_settles told ((orderly_empty mint).settles fresh)

/-- Ids of version 7, all of one millisecond. -/
def stamped (n : Nat) : Uuid :=
  .ofBytes [0x01, 0x97, 0x2F, 0x3A, 0x5C, 0x00, 0x70, 0x00, 0x80, 0, 0, 0, 0, 0, 0, UInt8.ofNat n]

/-- Claims that bring an external name and an email. -/
def badge (name email : String) : Claims :=
  { Claims.ofId Uuid.nil with externalId := name, email }

/-- A gate that takes a token for the external name of its user. The validator counts its calls,
and reports another email from the second one on. -/
def badgeGate : Gate (Nat × Directory) where
  validator := some fun _ token o =>
    (.ready (badge token (if o.1 = 0 then "old@x" else "new@x")), (o.1 + 1, o.2))
  resolver := some fun name username email o =>
    ((resolver name username email o.2).1, (o.1, (resolver name username email o.2).2))

theorem looksUpIn_badgeGate : badgeGate.LooksUpIn Prod.snd where
  validator := by
    rintro validate ⟨⟩ clock token o
    exact ⟨[], rfl⟩
  resolver := ⟨_, rfl, fun _ _ _ _ => rfl⟩

/-- A query without a name, and one for the user who comes next. -/
def othersAsked : List Query :=
  [⟨"", "eve", "eve@x"⟩, ⟨"kc-2", "bob", "bob@x"⟩]

/-- The world before the first visit. -/
def beforeFirstVisit : World (Nat × Directory) :=
  .fresh (0, empty stamped)

/-- The world before the visit of someone else: one user came, and others were asked for
since. -/
def beforeOtherVisit : World (Nat × Directory) :=
  let w := (badgeGate.authenticate "kc-1" beforeFirstVisit).2
  { w with outside := (w.outside.1, w.outside.2.after othersAsked) }

/-- The world before the first user comes back. -/
def beforeReturn : World (Nat × Directory) :=
  (badgeGate.authenticate "kc-2" beforeOtherVisit).2

/-- Who comes back with another email has the id of the first visit, which is not that of the one
who came in between. -/
theorem second_visit_has_first_id :
    (empty stamped).ask ⟨"", "eve", "eve@x"⟩ =
        (.failed (.unresolvable .emptyName), empty stamped) ∧
      (Fresh stamped ((empty stamped).after othersAsked).size ∧
        ((empty stamped).after othersAsked).size = 1 ∧
        Settles ((empty stamped).told othersAsked)) ∧
      badgeGate.LooksUpIn Prod.snd ∧ beforeFirstVisit.outside.2 = empty stamped ∧
      ∃ w', Course badgeGate Prod.snd beforeFirstVisit
          [⟨beforeFirstVisit, "kc-1"⟩, ⟨beforeOtherVisit, "kc-2"⟩, ⟨beforeReturn, "kc-1"⟩] w' ∧
        Fresh stamped w'.outside.2.size ∧ ∃ id id', id ≠ id' ∧
          Visit.outcome ⟨beforeFirstVisit, "kc-1"⟩ badgeGate =
            .ok { badge "kc-1" "old@x" with id } ∧
          Visit.outcome ⟨beforeOtherVisit, "kc-2"⟩ badgeGate =
            .ok { badge "kc-2" "new@x" with id := id' } ∧
          Visit.outcome ⟨beforeReturn, "kc-1"⟩ badgeGate =
            .ok { badge "kc-1" "new@x" with id } := by
  obtain ⟨nameless, run, gate⟩ := ids_tell_names_apart stamped
  have few : Fresh stamped ((empty stamped).after othersAsked).size := ⟨by decide, by decide⟩
  obtain ⟨size, settles⟩ := run othersAsked
  refine ⟨nameless _ _ rfl, ⟨few, size, settles few⟩, looksUpIn_badgeGate, rfl,
    (badgeGate.authenticate "kc-1" beforeReturn).2, ?_⟩
  have course : Course badgeGate Prod.snd beforeFirstVisit
      [⟨beforeFirstVisit, "kc-1"⟩, ⟨beforeOtherVisit, "kc-2"⟩, ⟨beforeReturn, "kc-1"⟩]
      (badgeGate.authenticate "kc-1" beforeReturn).2 :=
    .visit "kc-1" (.meanwhile othersAsked rfl (.visit "kc-2" (.visit "kc-1" .done)))
  have fresh : Fresh stamped (badgeGate.authenticate "kc-1" beforeReturn).2.outside.2.size :=
    ⟨by decide, by decide⟩
  obtain ⟨-, named, apart⟩ :=
    gate badgeGate Prod.snd beforeFirstVisit _ _ looksUpIn_badgeGate rfl course fresh
  have first : Visit.Brings ⟨beforeFirstVisit, "kc-1"⟩ badgeGate (badge "kc-1" "old@x") :=
    ⟨rfl, _, _, rfl, rfl⟩
  have other : Visit.Brings ⟨beforeOtherVisit, "kc-2"⟩ badgeGate (badge "kc-2" "new@x") :=
    ⟨rfl, _, _, rfl, rfl⟩
  have again : Visit.Brings ⟨beforeReturn, "kc-1"⟩ badgeGate (badge "kc-1" "new@x") :=
    ⟨rfl, _, _, rfl, rfl⟩
  obtain ⟨id, entered, -⟩ := named _ (by simp) _ first (by decide)
  obtain ⟨id', entered', -⟩ := named _ (by simp) _ other (by decide)
  obtain ⟨id'', entered'', -⟩ := named _ (by simp) _ again (by decide)
  have differ := apart _ (by simp) _ (by simp) _ _ _ _ first other entered entered'
  have same := apart _ (by simp) _ (by simp) _ _ _ _ again first entered'' entered
  obtain rfl : id'' = id := same.mpr rfl
  exact ⟨course, fresh, id'', id', fun h => absurd (differ.mp h) (by decide), entered, entered',
    entered''⟩

end Gatehouse.Auth
