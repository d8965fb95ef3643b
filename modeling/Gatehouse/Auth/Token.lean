import Gatehouse.Auth.Validator
import Gatehouse.Digest.Hmac
import Gatehouse.Json.Reader
import Gatehouse.Text.Base64Url
import Gatehouse.Text.Blank

/-!
Signed web tokens.

A token is a header, a payload and a signature between dots, all in base 64. It
is accepted when its header names the one algorithm in use, its signature is the
keyed digest of the two parts before it, and its payload gives an expiry that
has not passed, fits the issuer and audience in use, and names a subject. Every
fault is found in that order.
-/

namespace Gatehouse.Auth.Token

open Text

/-- What tokens are checked against. -/
structure Rules where
  secret : Bytes
  issuer : Option String
  audience : Option String
  deriving DecidableEq, Repr

/-- How many seconds a token is still accepted after its expiry. -/
def leeway : Nat := 60

def adminRole : String := "system-admin"

/-- The parts of a token between its last two dots. -/
structure Parts where
  header : List Char
  payload : List Char
  signature : List Char
  deriving DecidableEq, Repr

/-- The parts before and after the last occurrence of a separator. -/
def cutLast? (sep : Char) (cs : List Char) : Option (List Char × List Char) :=
  (cutChars sep cs.reverse).map fun parts => (parts.2.reverse, parts.1.reverse)

def parts? (token : String) : Option Parts := do
  let (signed, signature) ← cutLast? '.' token.toList
  let (header, payload) ← cutLast? '.' signed
  some ⟨header, payload, signature⟩

/-- The signature of a header and a payload. -/
def signature (secret : Bytes) (header payload : List Char) : List Char :=
  Base64Url.encodeChars
    (Digest.Hmac.sign secret (Bytes.ofText (String.ofList (header ++ '.' :: payload))))

/-! ### The header -/

def algorithm : String := "HS256"

def algorithms : List String :=
  ["HS256", "HS384", "HS512", "ES256", "ES384", "RS256", "RS384", "RS512", "PS256", "PS384",
    "PS512", "EdDSA"]

def headerFields : List String :=
  ["typ", "alg", "cty", "jku", "jwk", "kid", "x5u", "x5c", "x5t", "x5t#S256"]

/-- The texts that a key of each kind has to give. -/
def keyFields : List (String × List String) :=
  [("EC", ["crv", "x", "y"]), ("RSA", ["n", "e"]), ("oct", ["k"]), ("OKP", ["crv", "x"])]

/-- A key of a known kind. -/
def key? (j : Json) : Option Unit := do
  let kind ← (j.get? "kty").bind Json.text?
  let fields ← keyFields.lookup kind
  if fields.all fun f => ((j.get? f).bind Json.text?).isSome then some () else none

/-- The name of an algorithm: a text, or an object with null under that name. -/
def algorithmName? : Json → Option String
  | .text name => some name
  | .object [(name, .null)] => some name
  | _ => none

/-- The algorithm that a header names, if it is a header. -/
def algorithmOf? (header : Json) : Option String := do
  match ← Json.record? headerFields headerFields.length header with
  | typ :: alg :: cty :: jku :: jwk :: kid :: x5u :: x5c :: thumbs =>
      let _ ← (typ :: cty :: jku :: kid :: x5u :: thumbs).mapM (Json.nullable Json.text?)
      let _ ← Json.nullable Json.texts? x5c
      let _ ← Json.nullable key? jwk
      (Json.required algorithmName? alg).filter algorithms.contains
  | _ => none

/-! ### The payload -/

/-- The seconds since the epoch that a number gives; a fraction is rounded. -/
def seconds? : Json → Option Nat
  | .number (.int i) => if 0 ≤ i then some i.toNat else none
  | .number (.real x) =>
      if x.negative ∧ x.significand ≠ 0 then none
      else some x.roundMagnitude |>.filter fun n => n ≤ Decimal.max64
  | _ => none

/-- The names that a claim gives: one, or a list of them. -/
def parties? : Json → Option (List String)
  | .text s => some [s]
  | j => j.texts?

/-- Whether a value could stand where a single value is expected; in the place
of a time an empty array or object could. -/
def isSingle (emptyAllowed : Bool) : Option Json → Bool
  | some (.array items) => emptyAllowed && items.isEmpty
  | some (.object members) => emptyAllowed && members.isEmpty
  | _ => true

/-- The claims of a payload that decide whether its token is in force. -/
structure Terms where
  expiry : Option Nat
  issuer : Option (List String)
  audience : Option (List String)
  deriving DecidableEq, Repr

/-- The terms of a payload; a term of the wrong form counts as not given. -/
def terms? (payload : Json) : Option Terms := do
  match ← Json.record? ["exp", "nbf", "sub", "iss", "aud"] 5 payload with
  | [expiry, start, subject, issuer, audience] =>
      if isSingle true expiry && isSingle true start && isSingle false subject then
        some ⟨expiry.bind seconds?, issuer.bind parties?, audience.bind parties?⟩
      else none
  | _ => none

/-- Whether the names that a claim gives fit the one in use: both have to be
there to differ. -/
def fits (wanted : Option String) (given : Option (List String)) : Bool :=
  match wanted, given with
  | some name, some names => names.contains name
  | _, _ => true

def checkTerms (rules : Rules) (now : Nat) (t : Terms) : Except TokenFault Unit :=
  match t.expiry with
  | none => .error (.missingClaim "exp")
  | some expiry =>
      if expiry < now - leeway then .error .expired
      else if !fits rules.issuer t.issuer then .error .wrongIssuer
      else if !fits rules.audience t.audience then .error .wrongAudience
      else .ok ()

/-- What a payload says of a user. -/
structure Identity where
  subject : String
  username : String
  email : String
  roles : List String
  groups : List String
  deriving DecidableEq, Repr

def realmRoles? (j : Json) : Option (List String) := do
  match ← Json.record? ["roles"] 0 j with
  | [roles] => Json.orElse [] Json.texts? roles
  | _ => none

/-- What a payload says of a user; only the subject has to be there. -/
def identity? (payload : Json) : Option Identity := do
  match ← Json.record? ["sub", "preferred_username", "email", "realm_access", "groups"] 1
      payload with
  | [subject, username, email, realm, groups] =>
      some {
        subject := ← Json.required Json.text? subject
        username := ← Json.orElse "" Json.text? username
        email := ← Json.orElse "" Json.text? email
        roles := (← Json.nullable realmRoles? realm).getD []
        groups := ← Json.orElse [] Json.texts? groups }
  | _ => none

def Identity.claims (i : Identity) (raw : Json) : Claims where
  id := Uuid.nil
  externalId := i.subject
  username := i.username
  email := i.email
  roles := i.roles
  groups := i.groups
  isAdmin := i.roles.contains adminRole
  raw := raw

/-! ### Tokens -/

/-- The JSON value of a part: `none` within when the part is base 64 of
something else. -/
def value? (read : String → Option Json) (part : List Char) : Option (Option Json) :=
  (Base64Url.decodeChars? part).map fun bytes => (Bytes.text? bytes).bind read

/-- The value of a part, or the fault of a part without one. -/
def valueOf (read : String → Option Json) (part : List Char) : Except TokenFault Json :=
  match value? read part with
  | none => .error .base64
  | some none => .error .json
  | some (some j) => .ok j

/-- A value that has to be there. -/
def orFault (fault : TokenFault) : Option α → Except TokenFault α
  | some a => .ok a
  | none => .error fault

/-- The payload of a token whose signature is right. -/
def payload (rules : Rules) (token : String) : Except TokenFault Json := do
  let parts ← orFault .malformed (parts? token)
  let header ← valueOf Json.read? parts.header
  let named ← orFault .json (algorithmOf? header)
  if named ≠ algorithm then throw .wrongAlgorithm
  if parts.signature ≠ signature rules.secret parts.header parts.payload then
    throw .wrongSignature
  valueOf Json.readWhole? parts.payload

/-- The claims of a token, at a time in seconds since the epoch. -/
def read (rules : Rules) (now : Nat) (token : String) : Except TokenFault Claims := do
  let payload ← payload rules token
  let terms ← orFault .json (terms? payload)
  checkTerms rules now terms
  let identity ← orFault .unexpectedClaims (identity? payload.settled)
  if identity.subject.isEmpty then throw .emptySubject
  return identity.claims payload.settled

/-- The seconds since the epoch on a wall clock. -/
def timeOf (clock : Clock) : Nat :=
  (clock.wall / Span.seconds 1).toNat

/-- The validator of signed tokens. The id of its claims is always nil. -/
def validator (rules : Rules) : Validator ω := fun clock token w =>
  (atOnce ((read rules (timeOf clock) token).mapError .invalidToken), w)

end Gatehouse.Auth.Token
