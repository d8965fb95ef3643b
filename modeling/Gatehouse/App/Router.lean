import Gatehouse.App.Login
import Gatehouse.App.Route

/-!
The router: from a request to the response of an app.

Every request passes the limiters of clients and of endpoints. A protected route
then requires a user, and passes the limiters of users and of workspaces. A
known path with another method goes the same way and ends without a handler.
-/

namespace Gatehouse.App

open Http Auth Limit

variable {ω : Type}

/-! ### Handlers -/

/-- Whether the store answers. -/
def health (app : App ω) : Handler ω := fun _ => do
  let healthy ← app.isHealthy
  return Response.ofJson (if healthy then 200 else 503) (.object [
    ("status", .text (if healthy then "healthy" else "unhealthy")),
    ("store", .text app.storeKind), ("redis", .bool healthy)])

def metrics : Handler ω := fun _ => do
  return Response.ofText 200 "text/plain; version=0.0.4; charset=utf-8" (← get).metrics.expose

/-- A handler that needs a user. -/
def withUser (answer : User → Response) : Handler ω := fun r =>
  pure (match r.context.user with
    | some user => answer user
    | none => Fault.unauthorized.response)

/-- Who sent the request. -/
def me : Handler ω :=
  withUser fun user =>
    .ofJson 200 (.object (user.members ++ [("user", user.profile.toJson)]))

/-- The page after a login. -/
def workspaces : Handler ω :=
  withUser fun user => .ofJson 200 (.object [("user", user.profile.toJson)])

/-- One workspace, which the request has to name as its path does. -/
def workspaceBody (segment : String) (workspace : Option Uuid) (user : User) : Response :=
  match Text.Percent.decodeText? segment, workspace with
  | none, _ => .plain 400 "Invalid URL: Invalid UTF-8 in \x60id\x60"
  | some id, none => (Fault.badRequest ("invalid workspace id: " ++ id)).response
  | some id, some workspace =>
      if Uuid.read? id = some workspace then
        .ofJson 200
          (.object [("workspace_id", .text workspace.write), ("user_id", .text user.id.write)])
      else (Fault.badRequest "workspace header does not match path").response

def workspace (segment : String) : Handler ω := fun r =>
  withUser (workspaceBody segment r.context.workspace) r

def handlerOf (app : App ω) : Route → Handler ω
  | .health => app.health
  | .metrics => metrics
  | .login => app.login
  | .callback => app.callback
  | .logout => app.logout
  | .me => me
  | .workspaces => workspaces
  | .workspace segment => workspace segment

/-! ### Layers -/

/-- A response without a body of its own. -/
def answer (status : Nat) : Handler ω := fun _ =>
  pure (Response.bare status)

/-- The layers of protected routes. -/
def protection (app : App ω) : Layer ω := fun next =>
  app.meteredGate.require
    (app.userLimiter.guard (extractWorkspace (app.workspaceLimiter.guard next)))

def layersOf (app : App ω) (route : Route) : Layer ω :=
  if route.isProtected then app.protection
  else if route = .login then app.meteredGate.optional
  else id

/-- What answers a request by its path and method. -/
def routed (app : App ω) : Handler ω := fun r =>
  match Route.ofPath? r.path with
  | none => answer 404 r
  | some route =>
      app.layersOf route
        (if route.methods.contains r.method then app.handlerOf route else answer 405) r

/-- The layers of every request. -/
def limited (app : App ω) : Handler ω :=
  app.clientLimiter.guard (app.endpointLimiter.guard app.routed)

/-- Tell the methods of a route to a request with another one. -/
def tellMethods (r : Request) (response : Response) : Response :=
  match Route.ofPath? r.path with
  | none => response
  | some route =>
      if route.methods.contains r.method then response
      else response.insertText "allow" (",".intercalate route.methods)

def respond (app : App ω) : Handler ω := fun r => do
  return (tellMethods r (← app.limited r)).answering r.method

end Gatehouse.App
