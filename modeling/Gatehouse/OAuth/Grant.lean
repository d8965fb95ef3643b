import Gatehouse.Json.Record

/-!
Grants: what an identity provider gives for an authorization code.
-/

namespace Gatehouse.OAuth

/-- A granted token, for how many seconds it holds, and what came with it. -/
structure Grant where
  accessToken : String
  expiresIn : Option Int
  refreshToken : Option String
  tokenType : Option String
  deriving DecidableEq, Repr

namespace Grant

/-- How long a session lasts, in seconds, when the provider does not say. -/
def defaultMaxAge : Int := 3600

/-- A token that nothing more is known of. -/
def ofToken (token : String) : Grant :=
  ⟨token, none, none, none⟩

/-- How long a session with the token lasts, in seconds. -/
def maxAge (g : Grant) : Int :=
  match g.expiresIn with
  | some seconds => if 0 < seconds then seconds else defaultMaxAge
  | none => defaultMaxAge

/-- A number of seconds: a whole number of 64 bits with a sign. -/
def seconds? (j : Json) : Option Int :=
  j.int?.filter fun i => i ≤ Text.Decimal.max63

/-- Read a grant; only the token has to be there. -/
def read? (j : Json) : Option Grant := do
  match ← Json.record? ["access_token", "expires_in", "refresh_token", "token_type"] 1 j with
  | [accessToken, expiresIn, refreshToken, tokenType] =>
      some {
        accessToken := ← Json.required Json.text? accessToken
        expiresIn := ← Json.nullable seconds? expiresIn
        refreshToken := ← Json.nullable Json.text? refreshToken
        tokenType := ← Json.nullable Json.text? tokenType }
  | _ => none

end Grant

end Gatehouse.OAuth
