import Gatehouse.Auth.Directory
import Gatehouse.Auth.Jar
import Gatehouse.Fault
import Gatehouse.World

/-!
The gate: the layers that find out who sent a request.

A session token is validated and its user resolved. `require` answers a request
without a usable session itself; `optional` lets it through without a user. In
both a session that was rejected is cleared from the client.
-/

namespace Gatehouse.Auth

open Http

/-- The header of a client that swaps fragments of a page. -/
def fragmentHeader : String := "hx-request"

/-- The header that sends such a client on. -/
def fragmentRedirect : String := "hx-redirect"

/-- Whether headers come from a client that swaps fragments of a page. -/
def isFragment (headers : Headers) : Bool :=
  match headers.text? fragmentHeader with
  | some v => Text.sameIgnoringCase v "true"
  | none => false

/-- What a session came to. -/
inductive Session where
  | known (user : User)
  | missing
  | rejected

/-- A gate whose services keep their state in `ω`. -/
structure Gate (ω : Type) where
  validator : Option (Validator ω) := none
  resolver : Option (Resolver ω) := none
  /-- Trust every token while there is no validator. -/
  allowMock : Bool := false
  /-- Believe the proxy on whether a connection is secure. -/
  trustProxy : Bool := false
  loginPath : String := "/login"
  metered : Bool := false

namespace Gate

variable {ω : Type}

def active? (g : Gate ω) : Option (Validator ω) :=
  match g.validator with
  | some v => some v
  | none => if g.allowMock then some Mock.validator else none

/-- Every token is trusted. -/
def usesMock (g : Gate ω) : Bool :=
  g.validator.isNone && g.allowMock

/-- Fill in the id of claims that lack it. -/
def resolve (g : Gate ω) (c : Claims) : Act ω (Except AuthFault User) := do
  if !c.needsResolution then return .ok c
  match g.resolver with
  | none => return .error (.unresolvable .noResolver)
  | some resolve =>
      match (← Act.ask (resolve c.externalId c.username c.email)).within .timedOut with
      | .error e => return .error e
      | .ok id =>
          if id.isNil then return .error (.unresolvable .nilId)
          return .ok { c with id }

def authenticate (g : Gate ω) (token : String) : Act ω (Except AuthFault User) := do
  match g.active? with
  | none => return .error (.invalidToken .noValidator)
  | some validate =>
      match (← Act.ask (validate (← get).clock token)).within .timedOut with
      | .error e => return .error e
      | .ok claims => g.resolve claims

/-- Whether a request came over a secure connection. -/
def isSecure (g : Gate ω) (r : Request) : Bool :=
  Auth.isSecure r.headers r.target g.trustProxy

def jarOf (g : Gate ω) (r : Request) : Jar :=
  .ofHeaders r.headers (g.isSecure r)

/-- What the session in a jar came to. A rejected one is cleared. -/
def identify (g : Gate ω) (jar : Jar) : Act ω (Session × Jar) := do
  match jar.session? with
  | none => return (.missing, jar)
  | some token =>
      match ← g.authenticate token with
      | .ok user => return (.known user, jar)
      | .error _ => return (.rejected, jar.clearSession)

/-- The response to a request without a usable session. A client that swaps
fragments is told where to go; any other is sent to the login, and where it was
going is kept for a `GET`. -/
def turnAway (g : Gate ω) (r : Request) (jar : Jar) : Response :=
  if isFragment r.headers then
    jar.apply
      ((Response.ofJson 401 (.object [("error", .text "Authentication required")])).insertText
        fragmentRedirect g.loginPath)
  else
    (if r.method = "GET" then jar.setRedirect r.target.pathAndQuery else jar).apply
      (Response.found g.loginPath)

/-- The layer of what only users may see. -/
def require (g : Gate ω) : Layer ω := fun next r => do
  match ← g.identify (g.jarOf r) with
  | (.known user, _) => next (r.withUser user)
  | (_, jar) =>
      Act.record g.metered Metrics.recordAuthFailure
      return g.turnAway r jar

/-- The layer of what looks different to users. -/
def optional (g : Gate ω) : Layer ω := fun next r => do
  match ← g.identify (g.jarOf r) with
  | (.known user, jar) => return jar.apply (← next (r.withUser user))
  | (_, jar) => return jar.apply (← next r)

end Gate

/-- The one gate of a process, once it is installed. -/
abbrev GateSlot (ω : Type) := Option (Gate ω)

namespace GateSlot

/-- Install a gate in a slot that is empty; the answer is whether it was. -/
def install (slot : GateSlot ω) (g : Gate ω) : Bool × GateSlot ω :=
  match slot with
  | none => (true, some g)
  | some old => (false, some old)

/-- Require a user by the gate of the process. -/
def require (slot : GateSlot ω) : Layer ω := fun next r =>
  match slot with
  | some g => g.require next r
  | none => pure (Fault.internal "auth middleware not initialized").response

end GateSlot

end Gatehouse.Auth
