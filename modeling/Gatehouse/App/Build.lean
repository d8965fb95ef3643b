import Gatehouse.App.Basic
import Gatehouse.Auth.Token
import Gatehouse.Config
import Gatehouse.OAuth.Client
import Gatehouse.Store.Address

/-!
Building an app from settings.

The settings choose between a memory and a key-value server, between signed and
mock sessions, and between a provider and the mock login.
-/

namespace Gatehouse

/-- The services that a process has to offer, with their state in `ω`. -/
structure Services (ω : Type) where
  /-- Counters in memory. -/
  memory : Store ω
  /-- The client of a key-value server. -/
  client : ServerAddress → Client ω
  /-- Whether a key-value server answers. -/
  ping : ServerAddress → ω → Bool × ω
  network : OAuth.Network ω
  resolver : Auth.Resolver ω

/-- Why settings give no app. -/
inductive BuildFault where
  | server (cause : ServerAddress.Fault)
  | provider (cause : Url.Fault)
  deriving DecidableEq, Repr

/-- The wording of a fault, down to its last cause. -/
def BuildFault.message : BuildFault → String
  | server cause => "failed to create Redis client: " ++ cause.message
  | provider cause =>
      "failed to create OAuth client: invalid provider url: " ++ cause.message ++ ": " ++
        cause.message

namespace App

variable {ω : Type}

/-- The limits of single endpoints in every app that is built from settings. -/
def builtEndpoints : Limit.Endpoints :=
  .ofList [("GET:/login", 30), ("GET:/auth/callback", 10)]

/-- The address of the key-value server, if one is set. -/
def serverOf (c : Config) : Except BuildFault (Option ServerAddress) :=
  match c.redisUrl with
  | none => .ok none
  | some url => ((ServerAddress.read url).mapError .server).map some

/-- The client of the identity provider, if one is set. -/
def clientOf (c : Config) : Except BuildFault (Option OAuth.Client) :=
  match c.provider with
  | none => .ok none
  | some settings => ((OAuth.Client.ofSettings settings).mapError .provider).map some

/-- The rules of session tokens, if there is a secret. -/
def tokenRules? (c : Config) : Option Auth.Token.Rules :=
  c.jwtSecret.map fun secret => ⟨Bytes.ofText secret, c.jwtIssuer, c.jwtAudience⟩

def gateOf (services : Services ω) (c : Config) : Auth.Gate ω where
  validator := (tokenRules? c).map Auth.Token.validator
  resolver := some services.resolver
  allowMock := c.allowMock
  trustProxy := c.trustProxy

def ofConfig (services : Services ω) (c : Config) : Except BuildFault (App ω) := do
  let server ← serverOf c
  let client ← clientOf c
  return {
    store := match server with
      | some address => some ((services.client address).store c.keyFront)
      | none => some services.memory
    ping := server.map services.ping
    provider := client.map fun client => client.provider services.network
    gate := gateOf services c
    endpoints := builtEndpoints
    limit := c.limit
    burst := c.burst
    window := c.window
    skipPaths := c.skipPaths
    deadline := c.storeDeadline
    workspaceLimit := c.workspaceLimit
    landing := c.landing }

end App

end Gatehouse
