import Gatehouse.App.Basic
import Gatehouse.OAuth.State
import Gatehouse.Page
import Gatehouse.Text.Form

/-!
Login, its callback, and logout.

A login leaves its state in a cookie and leads to the provider, or without one
straight to the callback with a mock code. The callback compares the states,
trades the code for a grant and keeps its token in the session cookie. Whatever
fails first decides the page, and every callback counts one outcome.
-/

namespace Gatehouse.App

open Http Auth OAuth

variable {ω : Type}

/-- Where the provider sends a browser back to. -/
def callbackPath : String := "/auth/callback"

/-- The code of a login without a provider. -/
def mockCode : String := "mock-code"

/-- Whether a text is a path on the same origin: it begins with exactly one
slash, no backslash follows it, and it has no control character. -/
def isLocalPath (target : String) : Bool :=
  match target.toList with
  | '/' :: rest =>
      rest.head? ≠ some '/' && rest.head? ≠ some '\\' && !rest.any Text.isControl
  | _ => false

/-- The address of the callback, as the browser that sent a request sees it. -/
def returnAddress (app : App ω) (r : Request) : String :=
  let scheme := if app.gate.isSecure r then "https" else "http"
  let host := (r.headers.text? "host").or r.target.authority |>.getD "localhost"
  scheme ++ "://" ++ host ++ callbackPath

/-! ### Login -/

/-- Where a login goes on. -/
def loginLink (app : App ω) (r : Request) (state : String) : String :=
  match app.provider with
  | some p => p.authorizationUrl (app.returnAddress r) state
  | none => callbackPath ++ "?code=" ++ mockCode ++ "&state=" ++ state

/-- Begin a login; who is signed in already goes to the landing page. -/
def login (app : App ω) : Handler ω := fun r => do
  if r.context.user.isSome then return Response.found app.landing
  let state := stateOf (← Act.draw)
  return ((app.gate.jarOf r).setState state).apply (Page.login (app.loginLink r state))

/-! ### Callback -/

/-- What the provider sends back. -/
structure CallbackParams where
  code : String
  state : String
  error : String
  description : String
  deriving DecidableEq, Repr

namespace CallbackParams

def names : List String := ["code", "state", "error", "error_description"]

/-- The first name that is repeated. -/
def repeated? : List String → List String → Option String
  | _, [] => none
  | seen, name :: rest =>
      if seen.contains name then some name else repeated? (name :: seen) rest

/-- The parameters of a query: other names are ignored, and a name that is
repeated is the fault. -/
def read (query : String) : Except String CallbackParams :=
  let pairs := (Text.Form.decode query).filter fun p => names.contains p.1
  match repeated? [] (pairs.map Prod.fst) with
  | some name => .error name
  | none =>
      let get (name : String) : String := (pairs.lookup name).getD ""
      .ok ⟨get "code", get "state", get "error", get "error_description"⟩

end CallbackParams

/-- What a callback comes to. -/
inductive Outcome where
  | providerError
  | stateMismatch
  | missingCode
  | exchangeFailed
  | success
  deriving DecidableEq, Repr

namespace Outcome

def label : Outcome → String
  | providerError => "provider_error"
  | stateMismatch => "state_mismatch"
  | missingCode => "missing_code"
  | exchangeFailed => "exchange_failed"
  | success => "success"

/-- What the page of a failed login says. -/
def message : Outcome → String
  | providerError => "The identity provider could not sign you in."
  | stateMismatch => "Your sign-in request expired or did not match. Please try again."
  | missingCode => "No authorization code was returned."
  | exchangeFailed => "We could not complete sign-in. Please try again."
  | success => ""

end Outcome

def recordOutcome (o : Outcome) : Act ω Unit :=
  Act.record true (Metrics.recordCallback o.label)

/-- End a callback without a session. -/
def fail (app : App ω) (o : Outcome) (jar : Jar) : Act ω Response := do
  recordOutcome o
  return jar.apply (Page.failure app.gate.loginPath o.message)

/-- Where a finished login leads to: the path that was kept, if it is local. -/
def targetOf (app : App ω) (jar : Jar) : String :=
  (jar.redirect?.filter isLocalPath).getD app.landing

/-- End a callback with a session. -/
def succeed (app : App ω) (g : Grant) (jar : Jar) : Act ω Response := do
  recordOutcome .success
  return ((jar.setSession g.accessToken g.maxAge).clearRedirect).apply
    (Page.callback (app.targetOf jar))

/-- Trade a code for a grant; without a provider the code is the token. -/
def grantFor (app : App ω) (code : String) (r : Request) : Act ω (Except ExchangeFault Grant) :=
  match app.provider with
  | some p => Act.ask (p.exchange code (app.returnAddress r))
  | none => pure (.ok (Grant.ofToken code))

/-- Finish a login. From the check of the state on, the state is cleared. -/
def finishLogin (app : App ω) (p : CallbackParams) : Handler ω := fun r => do
  let jar := app.gate.jarOf r
  if !p.error.isEmpty then app.fail .providerError jar
  else
    let kept := jar.state?.getD ""
    let jar := jar.clearState
    if !statesMatch kept p.state then app.fail .stateMismatch jar
    else if p.code.isEmpty then app.fail .missingCode jar
    else
      match ← app.grantFor p.code r with
      | .error _ => app.fail .exchangeFailed jar
      | .ok g => app.succeed g jar

/-- The callback: a query with a repeated parameter is refused unread. -/
def callback (app : App ω) : Handler ω := fun r =>
  match CallbackParams.read (r.target.query.getD "") with
  | .ok p => app.finishLogin p r
  | .error name =>
      pure (Response.plain 400
        ("Failed to deserialize query string: duplicate field \x60" ++ name ++ "\x60"))

/-! ### Logout -/

def logout (app : App ω) : Handler ω := fun r =>
  let jar := (app.gate.jarOf r).clearSession.clearRedirect
  pure (jar.apply
    (if isFragment r.headers then
      (Response.bare 200).insertText fragmentRedirect app.gate.loginPath
    else Response.found app.gate.loginPath))

end Gatehouse.App
