import Gatehouse.OAuth.Grant
import Gatehouse.Url.Reader

/-!
Identity providers: where a login is sent to, and what trades the code that
comes back for a grant.
-/

namespace Gatehouse.OAuth

/-- Why a reply is no grant. -/
inductive MalformedReply where
  | notAGrant
  | emptyToken
  deriving DecidableEq, Repr

/-- Why there is no grant. -/
inductive ExchangeFault where
  | rejected (reason : String)
  | transport
  | malformed (cause : MalformedReply)
  deriving DecidableEq, Repr

/-- A provider that keeps its state in `ω`. -/
structure Provider (ω : Type) where
  /-- Where a login goes on, given where to come back to and its state. -/
  authorizationUrl : String → String → String
  /-- Trade a code for a grant, given where the login came back to. -/
  exchange : String → String → ω → Except ExchangeFault Grant × ω

/-- What is known of a provider on the web. -/
structure Settings where
  authorizeUrl : String
  tokenUrl : String
  clientId : String
  clientSecret : Option String
  scopes : String
  deriving DecidableEq, Repr

/-- The scopes that are asked for unless it is told otherwise. -/
def defaultScopes : String := "openid profile email"

end Gatehouse.OAuth
