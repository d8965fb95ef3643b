import Gatehouse.Auth.Gate
import Gatehouse.Limit.Workspace
import Gatehouse.OAuth.Provider

/-!
The parts of an app.

An app has one store for all of its limiters, one gate, and maybe an identity
provider. Of its four limiters those of clients, endpoints and users share the
window, the paths to skip and the deadline; a burst is on top of the limits of
clients and users only.
-/

namespace Gatehouse

open Limit Auth

/-- The parts of an app whose services keep their state in `ω`. -/
structure App (ω : Type) where
  /-- Without a store nothing is limited. -/
  store : Option (Store ω) := none
  limit : Nat := 100
  burst : Nat := 20
  window : Span := Span.seconds 60
  skipPaths : List String := ["/health"]
  deadline : Span := defaultDeadline
  endpoints : Endpoints := Endpoints.empty
  workspaceLimit : Nat := 1000
  /-- The workspaces with limits of their own. -/
  workspaceLimits : List (Uuid × Nat) := []
  gate : Gate ω := {}
  /-- Without a provider a login ends with a mock code. -/
  provider : Option (OAuth.Provider ω) := none
  /-- Where a login leads to. -/
  landing : String := "/workspaces"
  /-- Whether the server of the store answers, where there is such a server. -/
  ping : Option (ω → Bool × ω) := none

namespace App

variable {ω : Type}

/-- What the limiters of clients, endpoints and users share. -/
def limiter (app : App ω) (key : KeyRule) : Limiter ω :=
  { (Limiter.default.keyedBy key : Limiter ω) with
    limit := app.limit
    window := app.window
    skipPaths := app.skipPaths
    store := app.store
    deadline := app.deadline
    metered := true }

def clientLimiter (app : App ω) : Limiter ω :=
  { app.limiter .client with burst := app.burst }

def endpointLimiter (app : App ω) : Limiter ω :=
  { app.limiter app.endpoints.keyRule with
    limitOf := some (app.endpoints.limitOf app.limit)
    name := "endpoint" }

def userLimiter (app : App ω) : Limiter ω :=
  { app.limiter .user with burst := app.burst }

def workspaceLimiter (app : App ω) : WorkspaceLimiter ω where
  store := app.store
  limit := app.workspaceLimit
  window := app.window
  overrides := app.workspaceLimits
  deadline := app.deadline
  metered := true

/-- The gate, whose failures are counted. -/
def meteredGate (app : App ω) : Gate ω :=
  { app.gate with metered := true }

def storeKind (app : App ω) : String :=
  match app.store, app.ping with
  | none, _ => "none"
  | some _, some _ => "redis"
  | some _, none => "memory"

/-- Whether the server of the store answers; without one nothing is amiss. -/
def isHealthy (app : App ω) : Act ω Bool :=
  match app.ping with
  | none => pure true
  | some ping => Act.ask ping

end App

end Gatehouse
