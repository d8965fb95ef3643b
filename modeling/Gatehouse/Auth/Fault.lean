/-!
Why a session token does not stand for a user.
-/

namespace Gatehouse.Auth

/-- Why a token is refused. -/
inductive TokenFault where
  /-- No validator is there to look at it. -/
  | noValidator
  | empty
  /-- It has fewer than three parts. -/
  | malformed
  | base64
  | json
  | wrongAlgorithm
  | wrongSignature
  | missingClaim (name : String)
  | expired
  | wrongIssuer
  | wrongAudience
  /-- Its claims are not of the form that the provider gives them. -/
  | unexpectedClaims
  | emptySubject
  /-- For a reason of the validator's own. -/
  | because (reason : String)
  deriving DecidableEq, Repr

def TokenFault.message : TokenFault → String
  | noValidator => "no token validator configured"
  | empty => "empty token"
  | malformed => "InvalidToken"
  | base64 => "Base64 error"
  | json => "JSON error"
  | wrongAlgorithm => "InvalidAlgorithm"
  | wrongSignature => "InvalidSignature"
  | missingClaim name => "Missing required claim: " ++ name
  | expired => "ExpiredSignature"
  | wrongIssuer => "InvalidIssuer"
  | wrongAudience => "InvalidAudience"
  | unexpectedClaims => "unexpected claims"
  | emptySubject => "empty subject"
  | because reason => reason

/-- Why claims have no user. -/
inductive UserFault where
  /-- No resolver is there to look them up. -/
  | noResolver
  | emptyName
  /-- The resolver gave the nil id. -/
  | nilId
  /-- For a reason of the resolver's own. -/
  | because (reason : String)
  deriving DecidableEq, Repr

def UserFault.message : UserFault → String
  | noResolver => "no user resolver configured"
  | emptyName => "empty external id"
  | nilId => "resolver returned a nil id"
  | because reason => reason

/-- Why a session token does not stand for a user. -/
inductive AuthFault where
  | invalidToken (cause : TokenFault)
  | unresolvable (cause : UserFault)
  | timedOut
  deriving DecidableEq, Repr

def AuthFault.message : AuthFault → String
  | invalidToken cause => "invalid token: " ++ cause.message
  | unresolvable cause => "unable to resolve user: " ++ cause.message
  | timedOut => "authentication timed out"

end Gatehouse.Auth
