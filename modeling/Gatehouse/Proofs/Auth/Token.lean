import Gatehouse.Auth.Token
import Gatehouse.Proofs.Checks
import Gatehouse.Proofs.Json.Record
import Gatehouse.Proofs.Text.Pieces

/-!
What an accepted token proves, and to whom.

A token is accepted when each of its checks is passed (`read_eq_ok_iff`). What the checks
read is said here in terms of the token and its payload alone: `Signed` for the parts of
a token, `InForce` for its time, and `Identifies` for the claims that it gives to its
bearer.

* `accepted_identity`: an accepted token is signed with the secret by the one algorithm,
  is in force and names a subject, and what it says of its bearer comes from five claims
  of its payload. Two accepted tokens that agree on these five are the same to every
  reader but of the raw claims.
* `read_with_issuer_and_audience`: an issuer and an audience in use turn away a token
  that names others, and only that: a token that names none passes.
-/

namespace Gatehouse.Auth.Token

open Text Checks

variable {rules : Rules} {now : Nat} {token : String} {payload : Json} {c : Claims}

/-! ### Parts -/

theorem cutLast?_eq_some_iff {sep : Char} {cs a b : List Char} :
    cutLast? sep cs = some (a, b) ↔ cs = a ++ sep :: b ∧ sep ∉ b := by
  have turned : cs.reverse = b.reverse ++ sep :: a.reverse ↔ cs = a ++ sep :: b := by
    rw [← List.reverse_inj, List.reverse_reverse]
    simp
  have cut : cutLast? sep cs = some (a, b) ↔
      cutChars sep cs.reverse = some (b.reverse, a.reverse) := by
    rw [cutLast?, Option.map_eq_some_iff]
    constructor
    · rintro ⟨parts, cut, same⟩
      cases same
      rw [cut, List.reverse_reverse, List.reverse_reverse]
    · intro cut
      exact ⟨_, cut, by simp⟩
  rw [cut, cutChars_eq_some_iff, turned, List.mem_reverse]

/-- A token has its parts between its last two dots. -/
theorem parts?_eq_some_iff {parts : Parts} :
    parts? token = some parts ↔
      token.toList = parts.header ++ '.' :: parts.payload ++ '.' :: parts.signature ∧
        '.' ∉ parts.payload ∧ '.' ∉ parts.signature := by
  simp only [parts?, Option.bind_eq_bind, Option.bind_eq_some_iff, Prod.exists,
    cutLast?_eq_some_iff, Option.some.injEq]
  constructor
  · rintro ⟨signed, last, ⟨whole, noLast⟩, first, second, ⟨rfl, noSecond⟩, rfl⟩
    exact ⟨whole, noSecond, noLast⟩
  · rintro ⟨whole, noSecond, noLast⟩
    exact ⟨_, _, ⟨whole, noLast⟩, _, _, ⟨rfl, noSecond⟩, rfl⟩

/-- A part in base 64 of a text that reads as a value. -/
def Spells (read : String → Option Json) (part : List Char) (j : Json) : Prop :=
  ∃ bytes text, Base64Url.decodeChars? part = some bytes ∧ Bytes.text? bytes = some text ∧
    read text = some j

theorem valueOf_eq_ok_iff {read : String → Option Json} {part : List Char} {j : Json} :
    valueOf read part = .ok j ↔ Spells read part j := by
  have settle : valueOf read part = .ok j ↔ value? read part = some (some j) := by
    unfold valueOf
    split <;> simp_all
  simp only [settle, value?, Spells, Option.map_eq_some_iff, Option.bind_eq_some_iff,
    exists_and_left]

theorem orFault_eq_ok_iff {α : Type} {fault : TokenFault} {x : Option α} {a : α} :
    orFault fault x = .ok a ↔ x = some a := by
  cases x <;> simp [orFault]

/-! ### The signature -/

/-- The algorithm that a header names. -/
theorem named_of_algorithmOf? {header : Json} {name : String}
    (h : algorithmOf? header = some name) :
    (header.at? 1 "alg").bind algorithmName? = some name := by
  simp only [algorithmOf?, Option.bind_eq_bind, Option.bind_eq_some_iff] at h
  obtain ⟨fields, given, h⟩ := h
  have place : fields[1]? = some (header.at? 1 "alg") := Json.getElem?_of_record? given rfl
  split at h
  · rename_i alg _ _ _ _ _ _ _
    simp only [Option.bind_eq_some_iff] at h
    obtain ⟨_, _, _, _, _, _, h⟩ := h
    have found : some alg = some (header.at? 1 "alg") := place
    rw [← Option.some.inj found, ← Json.required_eq_bind]
    exact (Option.filter_eq_some_iff.mp h).1
  · cases h

/-- A token with this payload that is signed with a secret: its header names the one
algorithm, and its last part is the keyed digest of the header and the payload. -/
def Signed (secret : Bytes) (token : String) (payload : Json) : Prop :=
  ∃ header body : List Char, ∃ headed : Json,
    token.toList = header ++ '.' :: body ++ '.' :: Base64Url.encodeChars
      (Digest.Hmac.sign secret (Bytes.ofText (String.ofList (header ++ '.' :: body)))) ∧
    Spells Json.read? header headed ∧
    (headed.at? 1 "alg").bind algorithmName? = some "HS256" ∧
    Spells Json.readWhole? body payload

theorem signed_of_payload (h : Token.payload rules token = .ok payload) :
    Signed rules.secret token payload := by
  simp only [Token.payload, bind_eq_ok, unless_eq_ok, orFault_eq_ok_iff, valueOf_eq_ok_iff,
    parts?_eq_some_iff, not_not] at h
  obtain ⟨parts, ⟨whole, _, _⟩, headed, spelt, named, names, rfl, signed, body⟩ := h
  refine ⟨parts.header, parts.payload, headed, ?_, spelt, named_of_algorithmOf? names, body⟩
  rw [whole, signed]
  rfl

/-! ### Time and parties -/

theorem terms?_eq_some {t : Terms} (h : terms? payload = some t) :
    t.expiry = (payload.at? 0 "exp").bind seconds? ∧
      t.issuer = (payload.at? 3 "iss").bind parties? ∧
      t.audience = (payload.at? 4 "aud").bind parties? := by
  simp only [terms?, Option.bind_eq_bind, Option.bind_eq_some_iff] at h
  obtain ⟨fields, given, h⟩ := h
  have exp : fields[0]? = some (payload.at? 0 "exp") := Json.getElem?_of_record? given rfl
  have iss : fields[3]? = some (payload.at? 3 "iss") := Json.getElem?_of_record? given rfl
  have aud : fields[4]? = some (payload.at? 4 "aud") := Json.getElem?_of_record? given rfl
  split at h
  · split at h
    · cases h
      exact ⟨congrArg (·.bind seconds?) (Option.some.inj exp),
        congrArg (·.bind parties?) (Option.some.inj iss),
        congrArg (·.bind parties?) (Option.some.inj aud)⟩
    · cases h
  · cases h

theorem checkTerms_eq_ok_iff {t : Terms} :
    checkTerms rules now t = .ok () ↔
      (∃ expiry, t.expiry = some expiry ∧ now ≤ expiry + leeway) ∧
        fits rules.issuer t.issuer ∧ fits rules.audience t.audience := by
  unfold checkTerms
  cases t.expiry with
  | none => simp
  | some expiry =>
      have inTime : ¬ expiry < now - leeway ↔ now ≤ expiry + leeway := by omega
      simp only [ite_eq_ok, inTime, Option.some.injEq, exists_eq_left', Bool.not_eq_true',
        Bool.not_eq_false, and_true]

/-- A payload whose expiry is given and has not passed by more than the leeway. -/
def InForce (now : Nat) (payload : Json) : Prop :=
  ∃ claim expiry, payload.get? "exp" = some claim ∧ seconds? claim = some expiry ∧
    now ≤ expiry + leeway

/-- The names that a claim gives, if it is of the form to give any: a text, or a list
of texts. -/
inductive Names : Option Json → List String → Prop
  | one (name : String) : Names (some (.text name)) [name]
  | many (names : List String) : Names (some (.texts names)) names

theorem names_iff {claim : Option Json} {names : List String} :
    Names claim names ↔ claim.bind parties? = some names := by
  constructor
  · rintro (name | names)
    · rfl
    · exact Json.texts?_eq_some_iff.mpr rfl
  · intro given
    obtain ⟨j, rfl, parties⟩ := Option.bind_eq_some_iff.mp given
    unfold parties? at parties
    split at parties
    · cases parties
      exact .one _
    · rw [Json.texts?_eq_some_iff] at parties
      rw [parties]
      exact .many names

/-- A claim fits unless it names parties without the one in use. -/
theorem fits_some_iff {name : String} {claim : Option Json} :
    fits (some name) (claim.bind parties?) ↔ ∀ names, Names claim names → name ∈ names := by
  simp only [names_iff]
  cases claim.bind parties? with
  | none => simp [fits]
  | some names => simp [fits]

theorem fits_none (names : Option (List String)) : fits none names := by
  cases names <;> rfl

/-! ### The bearer -/

/-- What a claim of a text gives that may be missing. -/
inductive GivesText : Option Json → String → Prop
  | missing : GivesText none ""
  | text (s : String) : GivesText (some (.text s)) s

/-- What a claim of a list of texts gives that may be missing. -/
inductive GivesTexts : Option Json → List String → Prop
  | missing : GivesTexts none []
  | texts (ss : List String) : GivesTexts (some (.texts ss)) ss

/-- The roles that the claim of a realm gives: those under their name in an object, or
in the one place of an array. -/
inductive GivesRoles : Option Json → List String → Prop
  | missing : GivesRoles none []
  | null : GivesRoles (some .null) []
  | object {members : List (String × Json)} {ss : List String} :
      GivesTexts ((Json.object members).get? "roles") ss →
        GivesRoles (some (.object members)) ss
  | array {items : List Json} {ss : List String} :
      GivesTexts items[0]? ss → GivesRoles (some (.array items)) ss

theorem givesText_iff {claim : Option Json} {s : String} :
    Json.orElse "" Json.text? claim = some s ↔ GivesText claim s := by
  cases claim with
  | none => exact ⟨by rintro ⟨⟩; exact .missing, by rintro ⟨⟩; rfl⟩
  | some j =>
      rw [Json.orElse, Json.text?_eq_some_iff]
      exact ⟨by rintro rfl; exact .text s, by rintro ⟨⟩; rfl⟩

theorem givesTexts_iff {claim : Option Json} {ss : List String} :
    Json.orElse [] Json.texts? claim = some ss ↔ GivesTexts claim ss := by
  cases claim with
  | none => exact ⟨by rintro ⟨⟩; exact .missing, by rintro ⟨⟩; rfl⟩
  | some j =>
      rw [Json.orElse, Json.texts?_eq_some_iff]
      exact ⟨by rintro rfl; exact .texts ss, by rintro ⟨⟩; rfl⟩

theorem givesRoles_of_realmRoles? {j : Json} {ss : List String} (h : realmRoles? j = some ss) :
    GivesRoles (some j) ss := by
  simp only [realmRoles?, Option.bind_eq_bind, Option.bind_eq_some_iff] at h
  obtain ⟨fields, given, h⟩ := h
  have roles : fields[0]? = some (j.at? 0 "roles") := Json.getElem?_of_record? given rfl
  split at h
  · rw [givesTexts_iff, Option.some.inj roles] at h
    cases j with
    | object members => exact .object h
    | array items => exact .array h
    | _ => cases given
  · cases h

theorem givesRoles_of_nullable {claim : Option Json} {found : Option (List String)}
    (h : Json.nullable realmRoles? claim = some found) : GivesRoles claim (found.getD []) := by
  unfold Json.nullable at h
  split at h
  · cases h
    exact .missing
  · cases h
    exact .null
  · obtain ⟨ss, roles, rfl⟩ := Option.map_eq_some_iff.mp h
    exact givesRoles_of_realmRoles? roles

/-- The claims that the bearer of a token is known by. -/
def identityClaims : List String :=
  ["sub", "preferred_username", "email", "realm_access", "groups"]

/-- What these claims say of a bearer. -/
def identityOf? (claim : String → Option Json) : Option Identity := do
  some {
    subject := ← Json.required Json.text? (claim "sub")
    username := ← Json.orElse "" Json.text? (claim "preferred_username")
    email := ← Json.orElse "" Json.text? (claim "email")
    roles := (← Json.nullable realmRoles? (claim "realm_access")).getD []
    groups := ← Json.orElse [] Json.texts? (claim "groups") }

theorem identity?_settled (members : List (String × Json)) :
    identity? (Json.object members).settled = identityOf? (Json.object members).settled.get? := by
  rw [identity?, Json.record?_settled]
  rfl

theorem identityOf?_congr {f g : String → Option Json}
    (h : ∀ name ∈ identityClaims, f name = g name) : identityOf? f = identityOf? g := by
  simp only [identityClaims, List.forall_mem_cons, List.not_mem_nil] at h
  obtain ⟨sub, username, email, realm, groups, -⟩ := h
  rw [identityOf?, sub, username, email, realm, groups, identityOf?]

/-- What a payload says of the bearer of its token. -/
structure Identifies (payload : Json) (c : Claims) : Prop where
  id : c.id = Uuid.nil
  subject : payload.get? "sub" = some (.text c.externalId)
  named : c.externalId ≠ ""
  username : GivesText (payload.get? "preferred_username") c.username
  email : GivesText (payload.get? "email") c.email
  roles : GivesRoles (payload.get? "realm_access") c.roles
  groups : GivesTexts (payload.get? "groups") c.groups
  admin : c.isAdmin = true ↔ "system-admin" ∈ c.roles
  raw : c.raw = payload

theorem identifies_of_identityOf? {i : Identity} (h : identityOf? payload.get? = some i)
    (named : i.subject ≠ "") : Identifies payload (i.claims payload) := by
  simp only [identityOf?, Option.bind_eq_bind, Option.bind_eq_some_iff, Json.required_eq_bind,
    Json.text?_eq_some_iff, givesText_iff, givesTexts_iff, Option.some.injEq] at h
  obtain ⟨_, ⟨_, sub, rfl⟩, username, hu, email, he, realm, hr, groups, hg, rfl⟩ := h
  exact ⟨rfl, sub, named, hu, he, givesRoles_of_nullable hr, hg, List.contains_iff_mem, rfl⟩

/-! ### Accepted tokens -/

theorem subject_of_identity? {i : Identity} (h : identity? payload = some i) :
    payload.at? 0 "sub" = some (.text i.subject) := by
  simp only [identity?, Option.bind_eq_bind, Option.bind_eq_some_iff] at h
  obtain ⟨fields, given, h⟩ := h
  have place : fields[0]? = some (payload.at? 0 "sub") := Json.getElem?_of_record? given rfl
  split at h
  · simp only [Json.required_eq_bind, Option.bind_eq_some_iff, Json.text?_eq_some_iff,
      Option.some.injEq] at h
    obtain ⟨_, ⟨_, sub, rfl⟩, _, _, _, _, _, _, _, _, rfl⟩ := h
    exact (Option.some.inj place).symm.trans sub
  · cases h

/-- As an array a payload would have to give an expiry and a subject in one place. -/
theorem object_of_terms? {t : Terms} {i : Identity} {expiry : Nat}
    (terms : terms? payload = some t) (timed : t.expiry = some expiry)
    (known : identity? payload.settled = some i) : ∃ members, payload = .object members := by
  obtain ⟨claim, found, time⟩ :=
    Option.bind_eq_some_iff.mp ((terms?_eq_some terms).1.symm.trans timed)
  have subject := subject_of_identity? known
  cases payload with
  | object members => exact ⟨members, rfl⟩
  | array items =>
      have first : items[0]? = some claim := found
      rw [Json.settled, Json.at?, Json.settledItems_eq_map, List.getElem?_map, first,
        Option.map_some, Option.some.injEq, Json.settled_eq_text] at subject
      rw [subject] at time
      cases time
  | _ => cases found

theorem seconds?_settled (j : Json) : seconds? j.settled = seconds? j := by
  cases j <;> rfl

theorem parties?_settled (j : Json) : parties? j.settled = parties? j := by
  cases j with
  | array items =>
      apply Option.ext
      intro names
      exact Json.texts?_eq_some_iff.trans
        (Json.settled_eq_texts.trans Json.texts?_eq_some_iff.symm)
  | _ => rfl

/-- What the checks of the terms find is also found in the payload that is kept. -/
theorem checkTerms_settled {members : List (String × Json)} {t : Terms}
    (terms : terms? (.object members) = some t) :
    checkTerms rules now t = .ok () ↔
      InForce now (Json.object members).settled ∧
        fits rules.issuer (((Json.object members).settled.get? "iss").bind parties?) ∧
        fits rules.audience (((Json.object members).settled.get? "aud").bind parties?) := by
  have kept {α : Type} (read : Json → Option α) (same : ∀ j, read j.settled = read j)
      (name : String) :
      ((Json.object members).settled.get? name).bind read =
        ((Json.object members).get? name).bind read := by
    rw [Json.get?_settled, Option.bind_map]
    exact Option.bind_congr fun j _ => same j
  obtain ⟨expiry, issuer, audience⟩ := terms?_eq_some terms
  rw [checkTerms_eq_ok_iff, expiry, issuer, audience, kept parties? parties?_settled,
    kept parties? parties?_settled]
  have time : InForce now (Json.object members).settled ↔
      ∃ expiry, ((Json.object members).get? "exp").bind seconds? = some expiry ∧
        now ≤ expiry + leeway := by
    rw [← kept seconds? seconds?_settled]
    simp only [InForce, Option.bind_eq_some_iff]
    constructor
    · rintro ⟨claim, expiry, found, time, inTime⟩
      exact ⟨expiry, ⟨claim, found, time⟩, inTime⟩
    · rintro ⟨expiry, ⟨claim, found, time⟩, inTime⟩
      exact ⟨claim, expiry, found, time, inTime⟩
  rw [time]
  rfl

/-- **A token is accepted when each of its checks is passed**, and what they check is
read off the raw claims. -/
theorem read_eq_ok_iff :
    read rules now token = .ok c ↔
      ∃ members i, Token.payload rules token = .ok (.object members) ∧
        (terms? (.object members)).isSome ∧
        identityOf? (Json.object members).settled.get? = some i ∧ i.subject ≠ "" ∧
        c = i.claims (Json.object members).settled ∧
        InForce now c.raw ∧
        fits rules.issuer ((c.raw.get? "iss").bind parties?) ∧
        fits rules.audience ((c.raw.get? "aud").bind parties?) := by
  simp only [read, bind_eq_ok, unless_eq_ok, orFault_eq_ok_iff, pure_eq_ok]
  constructor
  · rintro ⟨payload, signed, t, terms, ⟨⟩, checked, i, known, named, rfl⟩
    obtain ⟨⟨expiry, timed, _⟩, _⟩ := checkTerms_eq_ok_iff.mp checked
    obtain ⟨members, rfl⟩ := object_of_terms? terms timed known
    rw [identity?_settled] at known
    exact ⟨members, i, signed, by rw [terms]; rfl, known, by simpa using named, rfl,
      (checkTerms_settled terms).mp checked⟩
  · rintro ⟨members, i, signed, formed, known, named, rfl, checked⟩
    obtain ⟨t, terms⟩ := Option.isSome_iff_exists.mp formed
    exact ⟨_, signed, t, terms, (), (checkTerms_settled terms).mpr checked, i,
      identity?_settled members ▸ known, by simpa using named, rfl⟩

/-- **An accepted token is signed, in force and known by five claims.** It has the
signature that the secret gives to its header and payload, its header names the one
algorithm, its expiry has not passed, and its subject is not empty. The claims of its
bearer are read off five claims of the payload: two accepted tokens that agree on these
give the same claims but for the raw ones, whatever else they carry. -/
theorem accepted_identity :
    (∀ rules now token c, read rules now token = .ok c →
      ∃ payload, Signed rules.secret token payload ∧ InForce now payload.settled ∧
        Identifies payload.settled c) ∧
    ∀ rules rules' now now' token token' c c',
      read rules now token = .ok c → read rules' now' token' = .ok c' →
      (∀ name ∈ ["sub", "preferred_username", "email", "realm_access", "groups"],
        c'.raw.get? name = c.raw.get? name) →
      c' = { c with raw := c'.raw } := by
  constructor
  · intro rules now token c accepted
    obtain ⟨members, i, signed, _, known, named, rfl, inForce, _⟩ := read_eq_ok_iff.mp accepted
    exact ⟨_, signed_of_payload signed, inForce, identifies_of_identityOf? known named⟩
  · intro rules rules' now now' token token' c c' accepted accepted' agree
    obtain ⟨_, i, _, _, known, _, rfl, _⟩ := read_eq_ok_iff.mp accepted
    obtain ⟨_, i', _, _, known', _, rfl, _⟩ := read_eq_ok_iff.mp accepted'
    have same : some i' = some i := known'.symm.trans ((identityOf?_congr agree).trans known)
    cases same
    rfl

/-- A token of a user who is no administrator. -/
def tokenWithoutAdminClaim : String :=
  "eyJhbGciOiJIUzI1NiJ9" ++
    ".eyJzdWIiOiJrYy00MiIsInByZWZlcnJlZF91c2VybmFtZSI6ImFteSIsImV4cCI6NDEwMjQ0NDgwMH0" ++
    ".Cb2NS6xpYbtjg01caFZ1onQUSAeIYXXQ2t-GUm7EJm0"

/-- A token of the same user, with a claim of being one. -/
def tokenWithAdminClaim : String :=
  "eyJhbGciOiJIUzI1NiJ9" ++
    ".eyJzdWIiOiJrYy00MiIsInByZWZlcnJlZF91c2VybmFtZSI6ImFteSIsImV4cCI6NDEwMjQ0NDkw" ++
    "MCwicm9sZXMiOlsic3lzdGVtLWFkbWluIl0sImlzX3N5c3RlbV9hZG1pbiI6dHJ1ZX0" ++
    ".wOFzv4stVgbkxBpz1bHs0yDqb2c-9vJn77ParIDgr1Q"

/-- The texts of the claims that identify a user, the claim of being an administrator, and whether
the user is taken for one. -/
def outlineOf (c : Claims) : List (Option (Option String)) × Option Bool × Bool :=
  (identityClaims.map fun name => (c.raw.get? name).map Json.text?,
    (c.raw.get? "is_system_admin").bind Json.bool?, c.isAdmin)

set_option maxRecDepth 100000 in
/-- The claim makes no administrator. -/
theorem admin_claim_makes_no_admin :
    ∃ c c', read ⟨Bytes.ofText "k", none, none⟩ 1700000000 tokenWithoutAdminClaim = .ok c ∧
      read ⟨Bytes.ofText "k", none, none⟩ 1700000000 tokenWithAdminClaim = .ok c' ∧
      (c'.raw.get? "is_system_admin").bind Json.bool? = some true ∧
      c'.isAdmin = false ∧ c' = { c with raw := c'.raw } := by
  let told := [some (some "kc-42"), some (some "amy"), none, none, none]
  obtain ⟨c, first, seen⟩ := exists_of_view
    (read ⟨Bytes.ofText "k", none, none⟩ 1700000000 tokenWithoutAdminClaim)
    outlineOf (told, none, false) (by decide +kernel)
  obtain ⟨c', second, seen'⟩ := exists_of_view
    (read ⟨Bytes.ofText "k", none, none⟩ 1700000000 tokenWithAdminClaim)
    outlineOf (told, some true, false) (by decide +kernel)
  simp only [outlineOf, told, identityClaims, List.map_cons, List.map_nil, Prod.mk.injEq,
    List.cons.injEq, Option.map_eq_some_iff, Option.map_eq_none_iff, Json.text?_eq_some_iff,
    and_true, exists_eq_right] at seen seen'
  obtain ⟨⟨sub, username, email, realm, groups⟩, _⟩ := seen
  obtain ⟨⟨sub', username', email', realm', groups'⟩, claimed, admin⟩ := seen'
  refine ⟨c, c', first, second, claimed, admin,
    accepted_identity.2 _ _ _ _ _ _ _ _ first second ?_⟩
  simp only [List.forall_mem_cons, sub, sub', username, username', email, email', realm, realm',
    groups, groups', List.not_mem_nil, false_implies, implies_true, and_self]

/-- **An issuer and an audience in use turn away the tokens that name others.** A token
is accepted with both exactly when it is accepted without, and names the issuer wherever
it names issuers, and the audience wherever it names an audience. -/
theorem read_with_issuer_and_audience (secret : Bytes) (issuer audience : String) (now : Nat)
    (token : String) (c : Claims) :
    read ⟨secret, some issuer, some audience⟩ now token = .ok c ↔
      read ⟨secret, none, none⟩ now token = .ok c ∧
        (∀ names, Names (c.raw.get? "iss") names → issuer ∈ names) ∧
        (∀ names, Names (c.raw.get? "aud") names → audience ∈ names) := by
  simp only [read_eq_ok_iff, fits_some_iff, fits_none, and_true]
  constructor
  · rintro ⟨members, i, signed, formed, known, named, rfl, inForce, fitting⟩
    exact ⟨⟨members, i, signed, formed, known, named, rfl, inForce⟩, fitting⟩
  · rintro ⟨⟨members, i, signed, formed, known, named, rfl, inForce⟩, fitting⟩
    exact ⟨members, i, signed, formed, known, named, rfl, inForce, fitting⟩

set_option maxRecDepth 100000 in
/-- A token that names neither passes. -/
theorem nameless_token_passes :
    ∃ c, read ⟨Bytes.ofText "k", some "https://idp.flowra", some "flowra"⟩ 1700000000
        tokenWithoutAdminClaim = .ok c ∧
      c.raw.get? "iss" = none ∧ c.raw.get? "aud" = none := by
  obtain ⟨c, accepted, seen⟩ := exists_of_view
    (read ⟨Bytes.ofText "k", some "https://idp.flowra", some "flowra"⟩ 1700000000
      tokenWithoutAdminClaim)
    (fun c => ((c.raw.get? "iss").isNone, (c.raw.get? "aud").isNone)) (true, true)
    (by decide +kernel)
  rw [Prod.mk.injEq, Option.isNone_iff_eq_none, Option.isNone_iff_eq_none] at seen
  exact ⟨c, accepted, seen⟩

end Gatehouse.Auth.Token
