import Gatehouse.Auth.Claims
import Gatehouse.Auth.Fault
import Gatehouse.Digest.Sha256
import Gatehouse.Reply
import Gatehouse.Time

/-!
The two services behind a session: a validator reads the claims of a token, and
a resolver gives the internal id of a user that is known by an external name.
-/

namespace Gatehouse.Auth

/-- What gives the claims of a token. -/
abbrev Validator (ω : Type) := Clock → String → ω → Reply AuthFault Claims × ω

/-- What gives the internal id of an external name; it also sees the user name
and the email. -/
abbrev Resolver (ω : Type) := String → String → String → ω → Reply AuthFault Uuid × ω

def atOnce : Except AuthFault α → Reply AuthFault α
  | .ok a => .ready a
  | .error e => .failed e

namespace Mock

/-- The id that stands for a token: the beginning of its digest. -/
def idOf (token : String) : Uuid :=
  Uuid.ofBytes (Digest.Sha256.digest (Bytes.ofText token))

/-- The external name that stands for a token. -/
def nameOf (token : String) : String :=
  "mock-" ++ (idOf token).write

def claimsOf (token : String) : Claims where
  id := idOf token
  externalId := nameOf token
  username := "dev-user"
  email := "dev@flowra.local"
  roles := []
  groups := []
  isAdmin := false
  raw := .object [("sub", .text (nameOf token)), ("mock", .bool true)]

/-- Claims for every token that is not empty. -/
def read (token : String) : Except AuthFault Claims :=
  if token.isEmpty then .error (.invalidToken .empty) else .ok (claimsOf token)

/-- The validator for development: it trusts every token that is not empty, and
the same token always stands for the same user. -/
def validator : Validator ω := fun _ token w =>
  (atOnce (read token), w)

end Mock

end Gatehouse.Auth
