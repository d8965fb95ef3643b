import Gatehouse.OAuth.Provider
import Gatehouse.Store.Remote

/-!
Settings from variables.

A variable with a blank value counts as unset, and an unset one has a default.
The variables are read in a fixed order and the first fault is reported. A
secret for session tokens needs an identity provider, and without a secret only
mock sessions are left, which have to be allowed.
-/

namespace Gatehouse

/-- Values of variables. -/
abbrev Variables := String → Option String

/-- Why variables give no settings. -/
inductive ConfigFault where
  | port (cause : Text.Decimal.Fault)
  | number (name : String) (cause : Text.Decimal.Fault)
  | zeroWindow
  | noValidator
  | partialProvider
  | secretWithoutProvider
  | foreignLanding
  deriving DecidableEq, Repr

def ConfigFault.message : ConfigFault → String
  | port cause => "PORT must be a valid u16: " ++ cause.message
  | number name cause => name ++ " must be a valid number: " ++ cause.message
  | zeroWindow => "RATE_LIMIT_WINDOW_SECS must be greater than zero"
  | noValidator => "JWT_SECRET is required unless ALLOW_MOCK_AUTH=true"
  | partialProvider =>
      "OAUTH_AUTHORIZE_URL, OAUTH_TOKEN_URL and OAUTH_CLIENT_ID must be set together"
  | secretWithoutProvider =>
      "JWT_SECRET requires OAUTH_AUTHORIZE_URL, OAUTH_TOKEN_URL and OAUTH_CLIENT_ID; " ++
        "without a provider use ALLOW_MOCK_AUTH=true"
  | foreignLanding => "POST_LOGIN_PATH must be a local path"

/-- The settings of a server. -/
structure Config where
  port : Nat
  redisUrl : Option String
  /-- What stands before the keys of counters on a key-value server. -/
  keyFront : String
  limit : Nat
  burst : Nat
  window : Span
  skipPaths : List String
  workspaceLimit : Nat
  storeDeadline : Span
  authDeadline : Span
  allowMock : Bool
  jwtSecret : Option String
  jwtIssuer : Option String
  jwtAudience : Option String
  provider : Option OAuth.Settings
  trustProxy : Bool
  /-- Where a login leads to. -/
  landing : String
  deriving DecidableEq, Repr

namespace Variables

/-- The value of a variable that is set and not blank. -/
def value? (vars : Variables) (name : String) : Option String :=
  (vars name).filter fun v => !Text.blank v

def number (vars : Variables) (name : String) (default : Nat) : Except ConfigFault Nat :=
  match vars.value? name with
  | none => .ok default
  | some v => (Text.Decimal.readNat Text.Decimal.max64 v).mapError (.number name)

def port (vars : Variables) : Except ConfigFault Nat :=
  match vars.value? "PORT" with
  | none => .ok 3000
  | some v => (Text.Decimal.readNat Text.Decimal.max16 v).mapError .port

/-- Whether a variable says yes. -/
def flag (vars : Variables) (name : String) : Bool :=
  match vars.value? name with
  | none => false
  | some v => ["1", "true", "yes"].contains (Text.lowerAscii (Text.trim v))

/-- The parts of a variable between commas, trimmed, and without empty ones. -/
def parts (vars : Variables) (name : String) (default : List String) : List String :=
  match vars.value? name with
  | none => default
  | some v => ((Text.split ',' v).map Text.trim).filter fun p => !p.isEmpty

def windowSeconds (vars : Variables) : Except ConfigFault Nat := do
  let seconds ← vars.number "RATE_LIMIT_WINDOW_SECS" 60
  if seconds = 0 then throw .zeroWindow
  return seconds

/-- The secret of session tokens; without one, mock sessions have to be
allowed. -/
def secret (vars : Variables) : Except ConfigFault (Option String) := do
  let secret := vars.value? "JWT_SECRET"
  if secret = none ∧ !vars.flag "ALLOW_MOCK_AUTH" then throw .noValidator
  return secret

/-- The identity provider: three variables are set together or not at all. -/
def provider (vars : Variables) : Except ConfigFault (Option OAuth.Settings) :=
  match vars.value? "OAUTH_AUTHORIZE_URL", vars.value? "OAUTH_TOKEN_URL",
      vars.value? "OAUTH_CLIENT_ID" with
  | some authorizeUrl, some tokenUrl, some clientId =>
      .ok (some ⟨authorizeUrl, tokenUrl, clientId, vars.value? "OAUTH_CLIENT_SECRET",
        (vars.value? "OAUTH_SCOPES").getD OAuth.defaultScopes⟩)
  | none, none, none => .ok none
  | _, _, _ => .error .partialProvider

/-- Where a login leads to. -/
def landing (vars : Variables) : Except ConfigFault String := do
  let path := (vars.value? "POST_LOGIN_PATH").getD "/workspaces"
  if path.toList.head? ≠ some '/' then throw .foreignLanding
  return path

end Variables

namespace Config

def ofVariables (vars : Variables) : Except ConfigFault Config := do
  let port ← vars.port
  let limit ← vars.number "RATE_LIMIT_REQUESTS" 100
  let burst ← vars.number "RATE_LIMIT_BURST" 20
  let seconds ← vars.windowSeconds
  let workspaceLimit ← vars.number "WORKSPACE_RATE_LIMIT" 1000
  let storeMillis ← vars.number "STORE_TIMEOUT_MS" 250
  let authMillis ← vars.number "AUTH_TIMEOUT_MS" 2000
  let jwtSecret ← vars.secret
  let provider ← vars.provider
  if jwtSecret.isSome ∧ provider.isNone then throw .secretWithoutProvider
  let landing ← vars.landing
  return {
    port, limit, burst, workspaceLimit, jwtSecret, provider, landing
    redisUrl := vars.value? "REDIS_URL"
    keyFront := (vars.value? "RATE_LIMIT_PREFIX").getD Client.defaultKeyPrefix
    window := Span.seconds seconds
    skipPaths := vars.parts "RATE_LIMIT_SKIP_PATHS" ["/health"]
    storeDeadline := Span.millis storeMillis
    authDeadline := Span.millis authMillis
    allowMock := vars.flag "ALLOW_MOCK_AUTH"
    jwtIssuer := vars.value? "JWT_ISSUER"
    jwtAudience := vars.value? "JWT_AUDIENCE"
    trustProxy := vars.flag "TRUST_FORWARDED_PROTO" }

end Config

end Gatehouse
