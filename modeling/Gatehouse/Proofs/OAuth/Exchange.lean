import Gatehouse.OAuth.Client
import Gatehouse.Proofs.Json.Record
import Gatehouse.Proofs.Json.Values
import Gatehouse.Proofs.Text.Form

/-!
Trading a code for a grant.

A code goes out in one form, and whatever is in it is read back as it was given. What comes
back is settled by its status first: only a reply of success can be a grant, and then it has
to be one in full, with a token in it. Which bodies describe a grant, or a refusal, is said
here by their values (`Grant.DescribedBy`, `Refusal.DescribedBy`): the fields may come by
name or in their places, the ones that are not needed may be missing or null, and what is
unknown is passed over.

* `Grant.read?_eq_some_iff`, `PostReply.givenReason?_eq_some_iff`: what is read of a body is
  what it describes.
* `PostReply.settles_grant`: what a reply comes to.
* `exchange_settles_reply`: what is posted for a code, and what its reply comes to.
-/

namespace Gatehouse.OAuth

open Text

/-! ### What a body describes -/

/-- A value is a text. -/
def IsText (j : Json) (s : String) : Prop :=
  j = .text s

/-- A value is a number of seconds: a whole number of 64 bits with a sign. -/
def IsSeconds (j : Json) (i : Int) : Prop :=
  j = .number (.int i) ∧ -(Decimal.max63 + 1 : Int) ≤ i ∧ i ≤ Decimal.max63

/-- A value describes a grant; only its token has to be there. -/
def Grant.DescribedBy (g : Grant) (j : Json) : Prop :=
  ∃ expiresIn refreshToken tokenType : Option Json,
    Json.Gives ["access_token", "expires_in", "refresh_token", "token_type"] 1 j
      [some (.text g.accessToken), expiresIn, refreshToken, tokenType] ∧
    Json.Optional IsSeconds expiresIn g.expiresIn ∧
    Json.Optional IsText refreshToken g.refreshToken ∧ Json.Optional IsText tokenType g.tokenType

/-- An error that a provider names, with what it has to say about it. -/
structure Refusal where
  error : String
  description : Option String
  deriving DecidableEq, Repr

/-- A value describes a refusal; only the error has to be there. -/
def Refusal.DescribedBy (r : Refusal) (j : Json) : Prop :=
  ∃ description : Option Json,
    Json.Gives ["error", "error_description"] 1 j [some (.text r.error), description] ∧
    Json.Optional IsText description r.description

/-- The reason that a refusal gives. -/
def Refusal.reason (r : Refusal) : String :=
  match r.description with
  | some description => r.error ++ ": " ++ description
  | none => r.error

section Read

variable {j : Json} {g : Grant} {field : Option Json}

theorem nullable_text?_eq_some_iff {s : Option String} :
    Json.nullable Json.text? field = some s ↔ Json.Optional IsText field s :=
  Json.nullable_eq_some_iff (fun _ _ _ => Json.text?_eq_some_iff) fun _ null => nomatch null

theorem seconds?_eq_some_iff {i : Int} :
    Grant.seconds? j = some i ↔ j = .number (.int i) ∧ i ≤ Decimal.max63 := by
  rw [Grant.seconds?, Option.filter_eq_some_iff, decide_eq_true_iff]
  refine and_congr_left fun _ => ?_
  cases j with
  | number n => cases n <;> simp [Json.int?]
  | _ => simp [Json.int?]

/-- No number of a text is below the least of 64 bits, so only the other bound is checked. -/
theorem nullable_seconds?_eq_some_iff {i : Option Int}
    (fits : ∀ i, field = some (.number (.int i)) → -(Decimal.max63 + 1 : Int) ≤ i) :
    Json.nullable Grant.seconds? field = some i ↔ Json.Optional IsSeconds field i := by
  refine Json.nullable_eq_some_iff (fun v given i => ?_) fun _ null => nomatch null.1
  rw [seconds?_eq_some_iff, IsSeconds]
  refine and_congr_right fun same => ?_
  rw [and_iff_right (fits i (given.trans (congrArg some same)))]

theorem required_text?_eq_some_iff {s : String} :
    Json.required Json.text? field = some s ↔ field = some (.text s) := by
  rw [Json.required_eq_bind, Option.bind_eq_some_iff]
  simp only [Json.text?_eq_some_iff]
  constructor
  · rintro ⟨_, given, rfl⟩
    exact given
  · intro given
    exact ⟨_, given, rfl⟩

/-- The fields of a record are parts of its value. -/
theorem mem_parts_of_gives {names : List String} {needed : Nat} {fields : Json.Fields} {v : Json}
    (h : Json.Gives names needed j fields) (mem : some v ∈ fields) : v ∈ j.parts := by
  cases h with
  | object each =>
      obtain ⟨name, given⟩ : ∃ name, Json.Given name _ (some v) := by
        induction each with
        | nil => cases mem
        | cons given _ ih =>
            rcases List.mem_cons.mp mem with rfl | later
            · exact ⟨_, given⟩
            · exact ih later
      cases given with
      | once => simp [Json.parts]
  | array =>
      rcases List.mem_append.mp mem with mem | mem
      · obtain ⟨_, item, same⟩ := List.mem_map.mp mem
        cases same
        exact item
      · cases List.eq_of_mem_replicate mem

theorem least_of_gives {names : List String} {needed : Nat} {fields : Json.Fields}
    (fits : ∀ i, .number (.int i) ∈ j.parts → -(Decimal.max63 + 1 : Int) ≤ i)
    (h : Json.Gives names needed j fields) (mem : field ∈ fields) :
    ∀ i, field = some (.number (.int i)) → -(Decimal.max63 + 1 : Int) ≤ i := by
  rintro i rfl
  exact fits i (mem_parts_of_gives h mem)

/-- **The grant that is read is the one that is described.** -/
theorem Grant.read?_eq_some_iff
    (fits : ∀ i, .number (.int i) ∈ j.parts → -(Decimal.max63 + 1 : Int) ≤ i) :
    Grant.read? j = some g ↔ g.DescribedBy j := by
  simp only [Grant.read?, Option.bind_eq_bind, Option.bind_eq_some_iff]
  constructor
  · rintro ⟨fields, given, h⟩
    have gives := Json.record?_eq_some_iff.mp given
    split at h
    · rename_i _ expiresIn _ _
      have inside := least_of_gives fits gives (List.mem_cons_of_mem _ List.mem_cons_self)
      simp only [Option.bind_eq_some_iff, required_text?_eq_some_iff, nullable_text?_eq_some_iff,
        nullable_seconds?_eq_some_iff inside, Option.some.injEq] at h
      obtain ⟨_, rfl, _, expires, _, refresh, _, kind, rfl⟩ := h
      exact ⟨_, _, _, gives, expires, refresh, kind⟩
    · cases h
  · rintro ⟨expiresIn, refreshToken, tokenType, gives, expires, refresh, kind⟩
    have inside := least_of_gives fits gives (List.mem_cons_of_mem _ List.mem_cons_self)
    refine ⟨_, Json.record?_eq_some_iff.mpr gives, ?_⟩
    simp only [Option.bind_eq_some_iff, required_text?_eq_some_iff, nullable_text?_eq_some_iff,
      nullable_seconds?_eq_some_iff inside]
    exact ⟨_, rfl, _, expires, _, refresh, _, kind, rfl⟩

end Read

/-! ### What a reply comes to -/

namespace PostReply

variable {reply : PostReply} {g : Grant}

/-- The status of the reply is one of success. -/
def Succeeds (reply : PostReply) : Prop :=
  200 ≤ reply.status ∧ reply.status < 300

/-- The body is JSON that describes a grant. -/
def Describes (reply : PostReply) (g : Grant) : Prop :=
  ∃ j, Json.Denotes reply.body j ∧ g.DescribedBy j

/-- The body is JSON that describes a refusal. -/
def Refuses (reply : PostReply) (refusal : Refusal) : Prop :=
  ∃ j, Json.Denotes reply.body j ∧ refusal.DescribedBy j

/-- What a reply comes to, by its status and by what its body describes. -/
structure Settles (reply : PostReply) (outcome : Except ExchangeFault Grant) : Prop where
  /-- There is a grant exactly when a reply of success describes it and it has a token. -/
  granted : ∀ g, outcome = .ok g ↔ reply.Succeeds ∧ reply.Describes g ∧ g.accessToken ≠ ""
  /-- Every other reply of success is malformed. -/
  malformed : reply.Succeeds → (∀ g, reply.Describes g → g.accessToken = "") →
    ∃ cause, outcome = .error (.malformed cause) ∧
      (cause = .emptyToken ↔ ∃ g, reply.Describes g)
  /-- A reply without success is a rejection whatever else it describes, for the reason that
  it gives. -/
  refused : ¬ reply.Succeeds → ∀ refusal, reply.Refuses refusal →
    outcome = .error (.rejected refusal.reason)
  /-- A rejection without a reason is one for its status. -/
  rejected : ¬ reply.Succeeds → (∀ refusal, ¬ reply.Refuses refusal) →
    outcome = .error (.rejected reply.statusText)

theorem isSuccess_eq_true_iff : reply.isSuccess = true ↔ reply.Succeeds := by
  simp [isSuccess, Succeeds]

theorem describes_iff : (Json.read? reply.body).bind Grant.read? = some g ↔ reply.Describes g := by
  rw [Option.bind_eq_some_iff, Describes]
  refine exists_congr fun j => ?_
  rw [Json.read?_eq_some_iff]
  refine and_congr_right fun denotes => ?_
  exact Grant.read?_eq_some_iff fun i mem => (denotes.int_bounds mem).1

/-- **The reason that is read is the one of a refusal that is described.** -/
theorem givenReason?_eq_some_iff {reason : String} :
    reply.givenReason? = some reason ↔
      ∃ refusal, reply.Refuses refusal ∧ refusal.reason = reason := by
  simp only [givenReason?, Option.bind_eq_bind, Option.bind_eq_some_iff, Json.read?_eq_some_iff]
  constructor
  · rintro ⟨j, read, fields, given, h⟩
    split at h
    · simp only [Option.bind_eq_some_iff, required_text?_eq_some_iff,
        nullable_text?_eq_some_iff] at h
      obtain ⟨error, rfl, description, described, h⟩ := h
      refine ⟨⟨error, description⟩, ⟨j, read, _, Json.record?_eq_some_iff.mp given, described⟩, ?_⟩
      cases description <;> exact Option.some.inj h
    · cases h
  · rintro ⟨⟨error, description⟩, ⟨j, read, field, given, described⟩, rfl⟩
    refine ⟨j, read, _, Json.record?_eq_some_iff.mpr given, ?_⟩
    simp only [Option.bind_eq_some_iff, required_text?_eq_some_iff, nullable_text?_eq_some_iff]
    refine ⟨error, rfl, description, described, ?_⟩
    cases description <;> rfl

/-! #### By its status -/

theorem grant_of_succeeds (success : reply.Succeeds) : reply.grant =
    match (Json.read? reply.body).bind Grant.read? with
    | none => .error (.malformed .notAGrant)
    | some g => if g.accessToken.isEmpty then .error (.malformed .emptyToken) else .ok g := by
  have known := isSuccess_eq_true_iff.mpr success
  have passed : ¬ (!reply.isSuccess) = true := by simp [known]
  exact if_neg passed

theorem grant_of_not_succeeds (failure : ¬ reply.Succeeds) :
    reply.grant = .error (.rejected (reply.givenReason?.getD reply.statusText)) := by
  have known : reply.isSuccess = false := by
    rw [← Bool.not_eq_true, isSuccess_eq_true_iff]
    exact failure
  rw [grant, known, Bool.not_false, if_pos rfl]

theorem grant_eq_ok_iff :
    reply.grant = .ok g ↔ reply.Succeeds ∧ reply.Describes g ∧ g.accessToken ≠ "" := by
  by_cases success : reply.Succeeds
  · rw [grant_of_succeeds success, and_iff_right success, ← describes_iff]
    cases (Json.read? reply.body).bind Grant.read? with
    | none => simp
    | some found =>
        by_cases empty : found.accessToken = ""
        · have bare : found.accessToken.isEmpty = true := by simpa using empty
          simp only [bare, if_true, Option.some.injEq, reduceCtorEq, false_iff, not_and, not_not]
          rintro rfl
          exact empty
        · have filled : found.accessToken.isEmpty = false := by simpa using empty
          simp only [filled, Bool.false_eq_true, if_false, Except.ok.injEq, Option.some.injEq]
          constructor
          · rintro rfl
            exact ⟨rfl, empty⟩
          · exact fun h => h.1
  · rw [grant_of_not_succeeds success]
    simp [success]

/-- A reply of success without a grant is malformed: what it describes has an empty token, or
it describes nothing. -/
theorem grant_of_no_token (success : reply.Succeeds)
    (empty : ∀ g, reply.Describes g → g.accessToken = "") :
    ∃ cause, reply.grant = .error (.malformed cause) ∧
      (cause = .emptyToken ↔ ∃ g, reply.Describes g) := by
  rw [grant_of_succeeds success]
  cases read : (Json.read? reply.body).bind Grant.read? with
  | none =>
      refine ⟨.notAGrant, rfl, ?_⟩
      simp [← describes_iff, read]
  | some found =>
      have described := describes_iff.mp read
      refine ⟨.emptyToken, ?_, ?_⟩
      · simp [empty found described]
      · exact iff_of_true rfl ⟨found, described⟩

/-- **A reply comes to what its status and its body say.** -/
theorem settles_grant (reply : PostReply) : reply.Settles reply.grant := by
  constructor
  case granted =>
    intro g
    exact grant_eq_ok_iff
  case malformed =>
    intro success empty
    exact grant_of_no_token success empty
  case refused =>
    intro failure refusal refuses
    have reason := givenReason?_eq_some_iff.mpr ⟨refusal, refuses, rfl⟩
    rw [grant_of_not_succeeds failure, reason, Option.getD_some]
  case rejected =>
    intro failure nothing
    have reason : reply.givenReason? = none := by
      by_contra given
      obtain ⟨reason, given⟩ := Option.ne_none_iff_exists'.mp given
      obtain ⟨refusal, refuses, -⟩ := givenReason?_eq_some_iff.mp given
      exact nothing refusal refuses
    rw [grant_of_not_succeeds failure, reason, Option.getD_none]

end PostReply

/-! ### What is posted -/

/-- The pairs of the form, the last one only if there is a secret. -/
theorem Client.exchangePairs_eq (c : Client) (code redirectUri : String) :
    c.exchangePairs code redirectUri =
      [("grant_type", "authorization_code"), ("code", code), ("redirect_uri", redirectUri),
        ("client_id", c.clientId)] ++
          c.clientSecret.toList.map fun secret => ("client_secret", secret) := by
  rw [exchangePairs]
  cases c.clientSecret <;> rfl

/-- **A code is posted once, in a form with what it was given and no more, and its reply
decides.** The form goes to the address of the provider; its secret is in it exactly if there
is one. Where no reply comes back there is no grant either. -/
theorem exchange_settles_reply {ω : Type} (c : Client) (network : Network ω)
    (code redirectUri : String) (w : ω) :
    ∃ post : Post, post.url = { c.tokenUrl with fragment := none } ∧
      Form.decode post.body =
        [("grant_type", "authorization_code"), ("code", code), ("redirect_uri", redirectUri),
          ("client_id", c.clientId)] ++
            c.clientSecret.toList.map (fun secret => ("client_secret", secret)) ∧
      ((c.provider network).exchange code redirectUri w).2 = (network post w).2 ∧
      match (network post w).1 with
      | some reply => reply.Settles ((c.provider network).exchange code redirectUri w).1
      | none => ((c.provider network).exchange code redirectUri w).1 = .error .transport := by
  refine ⟨c.exchangePost code redirectUri, rfl, ?_, rfl, ?_⟩
  · rw [← c.exchangePairs_eq]
    exact Form.decode_encode _
  · have outcome : ((c.provider network).exchange code redirectUri w).1 =
        Client.settle (network (c.exchangePost code redirectUri) w).1 := rfl
    rw [outcome]
    cases (network (c.exchangePost code redirectUri) w).1 with
    | none => rfl
    | some reply => exact reply.settles_grant

end Gatehouse.OAuth
