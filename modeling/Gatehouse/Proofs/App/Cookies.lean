import Gatehouse.App.Router
import Gatehouse.Proofs.App.Callback
import Gatehouse.Proofs.Auth.Require
import Gatehouse.Proofs.Limit.Headers
import Gatehouse.Proofs.Limit.Workspace
import Gatehouse.Proofs.OAuth.State

/-!
Which cookies the responses of an app set.

There are few lists of cookies that a response may set (`Told`). Layers hand a request
on with the same path, query and headers, so whatever holds of the cookies of a handler
on all such requests is passed on by the layers around it (`SetsLike`).

Most responses clear cookies or keep a path to return to, and no more (`Quiet`).
Beyond that a login sets its state, and a callback with the right state sets a
session (`Writes`).

* `respond_told` says of every response of an app which cookies it sets.
* `respond_writes` says the same up to quiet ones.
-/

namespace Gatehouse.App

open Http Cookie Auth OAuth Limit

variable {ω : Type}

def Quiet (c : Setting) : Prop :=
  c.name = redirectCookie ∨ ∃ secure,
    c = Setting.cleared sessionCookie secure ∨ c = Setting.cleared stateCookie secure

/-- The cookies that a response to the request may set. -/
inductive Writes (r : Request) : List Setting → Prop
  | quiet {cs : List Setting} : (∀ c ∈ cs, Quiet c) → Writes r cs
  | state {seed : Seed} {secure : Bool} {cs : List Setting} : r.path = "/login" →
      (∀ c ∈ cs, Quiet c) →
      Writes r (⟨stateCookie, stateOf seed, true, secure, shortMaxAge⟩ :: cs)
  | session {token : String} {secure : Bool} {age : Int} {cs : List Setting} :
      r.path = callbackPath → KeptState r → (∀ c ∈ cs, Quiet c) →
      Writes r (Setting.cleared stateCookie secure ::
        ⟨sessionCookie, token, true, secure, age⟩ :: cs)

/-- The request in another context. -/
def within (r : Request) (context : Context) : Request :=
  { r with context }

/-- The cookies that a response to the request may set, in order. -/
inductive Told (app : App ω) (r : Request) : List Setting → Prop
  | nothing : Told app r []
  | turnedAway : Told app r (app.gate.stale r ++ app.gate.detour r)
  | begun (seed : Seed) : r.path = "/login" →
      Told app r (⟨stateCookie, stateOf seed, true, app.gate.isSecure r, shortMaxAge⟩ ::
        app.gate.stale r)
  | unknown : Told app r (app.gate.stale r)
  | failed : Told app r [Setting.cleared stateCookie (app.gate.isSecure r)]
  | succeeded {g : Grant} {seconds : Int} {o o' : ω} : r.path = callbackPath →
      Ends app r o .success (some g) o' → Lasts g seconds →
      Told app r (Setting.cleared stateCookie (app.gate.isSecure r) ::
        app.sessionSet r g seconds ++ [Setting.cleared redirectCookie (app.gate.isSecure r)])
  | signedOut : Told app r [Setting.cleared sessionCookie (app.gate.isSecure r),
      Setting.cleared redirectCookie (app.gate.isSecure r)]

/-- The handler sets such cookies, whatever is found out about the request. -/
def SetsLike (P : List Setting → Prop) (h : Handler ω) (r : Request) : Prop :=
  ∀ context w, ∃ cs, (h (within r context) w).1.Sets cs ∧ P cs

/-- The handler sets such cookies, whatever is found out about the request. -/
def SetsOnly (h : Handler ω) (r : Request) : Prop :=
  ∀ context w, ∃ cs, (h (within r context) w).1.Sets cs ∧ Writes r cs

variable {app : App ω} {r : Request} {next : Handler ω} {cs : List Setting}
  {P Q : List Setting → Prop}

theorem quiet_redirect (value : String) (sameSite secure : Bool) (age : Int) :
    Quiet ⟨redirectCookie, value, sameSite, secure, age⟩ :=
  .inl rfl

theorem quiet_stale (g : Gate ω) : ∀ c ∈ g.stale r, Quiet c := by
  intro c hc
  rw [Gate.stale] at hc
  split at hc
  · exact .inr ⟨_, .inl (List.mem_singleton.mp hc)⟩
  · exact absurd hc List.not_mem_nil

theorem quiet_detour (g : Gate ω) : ∀ c ∈ g.detour r, Quiet c := by
  intro c hc
  rw [Gate.detour] at hc
  split at hc
  · rw [List.mem_singleton.mp hc]
    exact quiet_redirect _ _ _ _
  · exact absurd hc List.not_mem_nil

/-! ### Layers -/

theorem SetsLike.of_none (nothing : P [])
    (h : ∀ context w, (next (within r context) w).1.Sets []) : SetsLike P next r :=
  fun context w => ⟨[], h context w, nothing⟩

theorem sets_reject {l : Limiter ω} (plain : l.onExceed = none) (win : Window) :
    (l.reject r win).Sets [] := by
  rw [Limiter.reject, plain]
  refine (Response.sets_ofJson 429 _).mapHeaders fun fields => ?_
  rw [Window.tellRejected, Window.getAll_number_of_ne _ (by decide),
    Window.getAll_writeHeaders_of_ne _ _ (by decide) (by decide) (by decide)]

theorem SetsLike.guard (h : SetsLike P next r) (nothing : P []) {l : Limiter ω}
    (plain : l.onExceed = none) : SetsLike P (l.guard next) r := by
  intro context w
  obtain ⟨inner, f, forwards, marks⟩ | ⟨win, after, answers⟩ := l.guard_marks (within r context) w
  · obtain ⟨cs, sets, like⟩ := h context inner
    refine ⟨cs, ?_, like⟩
    rw [forwards next]
    exact (marks.headers _ Response.setCookieName (by decide)).trans sets
  · refine ⟨[], ?_, nothing⟩
    rw [answers next]
    exact sets_reject plain win

theorem SetsLike.extractWorkspace (h : SetsLike P next r) (nothing : P []) :
    SetsLike P (extractWorkspace next) r := by
  intro context w
  rcases named : workspaceOf (within r context) with fault | _ | id
  · refine ⟨[], ?_, nothing⟩
    simp only [Limit.extractWorkspace, named]
    exact Response.sets_ofJson _ _
  · simp only [Limit.extractWorkspace, named]
    exact h context w
  · simp only [Limit.extractWorkspace, named]
    exact h { context with workspace := some id } w

theorem SetsLike.require (h : SetsLike P next r) {g : Gate ω}
    (away : P (g.stale r ++ g.detour r)) : SetsLike P (g.require next) r := by
  intro context w
  obtain ⟨o, ⟨user, -, forwards⟩ | ⟨-, answers⟩⟩ := g.require_cases (within r context) w
  · rw [forwards next]
    exact h { context with user := some user, profile := some user.profile } _
  · rw [answers next]
    exact ⟨_, g.sets_turnAway _, away⟩

/-- Where users are set nothing, whoever comes with another session is only told beside that
it is cleared. -/
theorem SetsLike.optional (h : SetsLike P next r) {g : Gate ω} (nothing : Q [])
    (known : ∀ context w, context.user.isSome → (next (within r context) w).1.Sets [])
    (unknown : ∀ cs, P cs → Q (cs ++ g.stale r)) : SetsLike Q (g.optional next) r := by
  intro context w
  obtain ⟨o, ⟨user, forwards⟩ | forwards⟩ := g.optional_cases (within r context) w
  · rw [forwards next]
    have silent : (next ((within r context).withUser user) { w with outside := o }).1.Sets [] :=
      known { context with user := some user, profile := some user.profile } _ rfl
    exact ⟨[], Jar.sets_apply silent, nothing⟩
  · rw [forwards next]
    obtain ⟨cs, sets, like⟩ := h context { w with outside := o }
    exact ⟨_, g.sets_staleJar _ sets, unknown cs like⟩

/-- The layers of protected routes set nothing but what turns a request away. -/
theorem SetsLike.protection (h : SetsLike P next r) (nothing : P [])
    (away : P (app.gate.stale r ++ app.gate.detour r)) : SetsLike P (app.protection next) r := by
  have workspaces : SetsLike P (app.workspaceLimiter.guard next) r := by
    rw [app.workspaceLimiter.guard_eq]
    exact h.guard nothing rfl
  exact ((workspaces.extractWorkspace nothing).guard nothing rfl).require away

/-! ### Handlers -/

theorem login_of_isSome (known : r.context.user.isSome) (w : World ω) :
    app.login r w = (Response.found app.landing, w) := by
  simp [login, known]

theorem login_of_eq_none (unknown : r.context.user = none) (w : World ω) :
    app.login r w = (((app.gate.jarOf r).setState (stateOf (w.seeds w.drawn))).apply
      (Page.login (app.loginLink r (stateOf (w.seeds w.drawn)))),
      { w with drawn := w.drawn + 1 }) := by
  simp [login, unknown]

theorem isWritable_state (seed : Seed) (secure : Bool) :
    Setting.isWritable ⟨stateCookie, stateOf seed, true, secure, shortMaxAge⟩ = true :=
  (SetCookie.isWritable_eq isName_stateCookie).trans
    (List.all_eq_true.mpr fun _ hc => (isPlain_of_mem_stateOf hc).1)

/-- A login that begins sets its state. -/
theorem sets_login (app : App ω) (unknown : r.context.user = none) (w : World ω) :
    (app.login r w).1.Sets [⟨stateCookie, stateOf (w.seeds w.drawn), true, app.gate.isSecure r,
      shortMaxAge⟩] := by
  have page : (Page.login (app.loginLink r (stateOf (w.seeds w.drawn)))).Sets [] :=
    Response.sets_ofText _ _ _
  have outgoing : ((app.gate.jarOf r).setState (stateOf (w.seeds w.drawn))).outgoing =
      [⟨stateCookie, stateOf (w.seeds w.drawn), true, app.gate.isSecure r, shortMaxAge⟩] := rfl
  have sets : (((app.gate.jarOf r).setState (stateOf (w.seeds w.drawn))).apply
      (Page.login (app.loginLink r (stateOf (w.seeds w.drawn))))).Sets _ := Jar.sets_apply page
  rw [outgoing, List.filter_singleton, isWritable_state] at sets
  rw [login_of_eq_none unknown]
  exact sets

/-- The handler of logins sets the state of a login or nothing. -/
theorem setsLike_login : SetsLike (fun cs => cs = [] ∨ ∃ seed,
    cs = [⟨stateCookie, stateOf seed, true, app.gate.isSecure r, shortMaxAge⟩]) app.login r := by
  intro context w
  cases user : context.user with
  | some user' =>
      refine ⟨[], ?_, .inl rfl⟩
      rw [login_of_isSome (by simp [within, user])]
      exact Response.sets_found _
  | none => exact ⟨_, sets_login app user w, .inr ⟨_, rfl⟩⟩

theorem Ends.kept {o o' : ω} {grant : Option Grant} (h : Ends app r o .success grant o') :
    KeptState r := by
  cases h with
  | granted _ kept => exact kept
  | mock _ kept => exact kept

/-- A callback ends the same way whatever is found out about it. -/
theorem Ends.of_within {context : Context} {o o' : ω} {outcome : Outcome} {grant : Option Grant}
    (h : Ends app (within r context) o outcome grant o') : Ends app r o outcome grant o' := by
  cases h with
  | providerError error => exact .providerError error
  | stateMismatch error differs => exact .stateMismatch error differs
  | missingCode error kept code => exact .missingCode error kept code
  | exchangeFailed error kept code has asked => exact .exchangeFailed error kept code has asked
  | granted error kept code has asked => exact .granted error kept code has asked
  | mock error kept code none => exact .mock error kept code none

theorem setsLike_callback (path : r.path = callbackPath) :
    SetsLike (Told app r) app.callback r := by
  intro context w
  obtain ⟨outcome, grant, o, ends, concludes⟩ | ⟨-, silent, -⟩ :=
    app.callback_ends (within r context) w
  · by_cases success : outcome = .success
    · subst success
      obtain ⟨-, g, seconds, rfl, lasts, sets, -⟩ := concludes.succeeded rfl
      exact ⟨_, sets, .succeeded path ends.of_within lasts⟩
    · by_cases refused : outcome = .providerError
      · exact ⟨_, (concludes.refused refused).2, .nothing⟩
      · exact ⟨_, (concludes.failed refused success).2, .failed⟩
  · exact ⟨[], silent, .nothing⟩

theorem setsLike_logout : SetsLike (Told app r) app.logout r := by
  intro context w
  have base : (if isFragment r.headers then
      (Response.bare 200).insertText fragmentRedirect app.gate.loginPath
      else Response.found app.gate.loginPath).Sets [] := by
    split
    · exact (Response.sets_bare 200).insertText (by decide) _
    · exact Response.sets_found _
  have outgoing : (app.gate.jarOf (within r context)).clearSession.clearRedirect.outgoing =
      [Setting.cleared sessionCookie (app.gate.isSecure r),
        Setting.cleared redirectCookie (app.gate.isSecure r)] := rfl
  have sets : ((app.gate.jarOf (within r context)).clearSession.clearRedirect.apply _).Sets _ :=
    Jar.sets_apply base
  rw [List.nil_append, outgoing, List.filter_cons_of_pos
    (SetCookie.isWritable_cleared isName_sessionCookie _), List.filter_singleton,
    isWritable_clearedRedirect] at sets
  exact ⟨_, sets, .signedOut⟩

/-- The handlers that only users get to set nothing. -/
theorem setsLike_withUser (nothing : P []) {answer : User → Response}
    (h : ∀ user, (answer user).Sets []) : SetsLike (ω := ω) P (withUser answer) r := by
  refine .of_none nothing fun context w => ?_
  cases known : (within r context).context.user with
  | some user =>
      simp only [withUser, known]
      exact h user
  | none =>
      simp only [withUser, known]
      exact Response.sets_ofJson _ _

theorem sets_workspaceBody (segment : String) (workspace : Option Uuid) (user : User) :
    (workspaceBody segment workspace user).Sets [] := by
  unfold workspaceBody
  split
  · exact Response.sets_ofText _ _ _
  · exact Response.sets_ofJson _ _
  · split <;> exact Response.sets_ofJson _ _

theorem setsLike_answer (nothing : P []) (status : Nat) : SetsLike (ω := ω) P (answer status) r :=
  .of_none nothing fun _ _ => Response.sets_bare status

/-! ### Routes -/

/-- The handler, or what tells that the method is no method of the route. -/
theorem SetsLike.allowed (h : SetsLike P next r) (nothing : P []) (allowed : Bool) :
    SetsLike P (if allowed then next else answer 405) r := by
  cases allowed with
  | true => exact h
  | false => exact setsLike_answer nothing 405

theorem setsLike_layersOf {route : Route} (named : Route.ofPath? r.path = some route) :
    SetsLike (Told app r) (app.layersOf route
      (if route.methods.contains r.method then app.handlerOf route else answer 405)) r := by
  cases route with
  | health =>
      exact SetsLike.allowed (.of_none .nothing fun _ _ => Response.sets_ofJson _ _) .nothing _
  | metrics =>
      exact SetsLike.allowed (.of_none .nothing fun _ _ => Response.sets_ofText _ _ _) .nothing _
  | login =>
      have entry := Route.mem_fixed_of_ofPath? named (by simp)
      have path : r.path = "/login" := by simpa [Route.fixed] using entry
      refine (setsLike_login.allowed (.inl rfl) _).optional (g := app.meteredGate) .nothing ?_ ?_
      · intro context w known
        split
        · rw [login_of_isSome known]
          exact Response.sets_found _
        · exact Response.sets_bare 405
      · rintro cs (rfl | ⟨seed, rfl⟩)
        · exact .unknown
        · exact .begun seed path
  | callback =>
      have entry := Route.mem_fixed_of_ofPath? named (by simp)
      have path : r.path = callbackPath := by simpa [Route.fixed, callbackPath] using entry
      exact (setsLike_callback path).allowed .nothing _
  | logout => exact setsLike_logout.allowed .nothing _
  | me =>
      exact ((setsLike_withUser .nothing fun _ => Response.sets_ofJson _ _).allowed .nothing
        _).protection .nothing .turnedAway
  | workspaces =>
      exact ((setsLike_withUser .nothing fun _ => Response.sets_ofJson _ _).allowed .nothing
        _).protection .nothing .turnedAway
  | workspace segment =>
      have page : SetsLike (Told app r) (workspace (ω := ω) segment) r := fun context =>
        setsLike_withUser .nothing (sets_workspaceBody segment context.workspace) context
      exact (page.allowed .nothing _).protection .nothing .turnedAway

theorem setsLike_routed (app : App ω) (r : Request) : SetsLike (Told app r) app.routed r := by
  intro context w
  rw [routed, show (within r context).path = r.path from rfl]
  cases named : Route.ofPath? r.path with
  | none => exact setsLike_answer .nothing 404 context w
  | some route => exact setsLike_layersOf named context w

theorem setsLike_limited (app : App ω) (r : Request) : SetsLike (Told app r) app.limited r :=
  ((setsLike_routed app r).guard .nothing rfl).guard .nothing rfl

theorem sets_tellMethods {response : Response} (h : response.Sets cs) :
    (tellMethods r response).Sets cs := by
  rw [tellMethods]
  split
  · exact h
  · split
    · exact h
    · exact Response.Sets.insertText h (by decide) _

theorem sets_respond {w : World ω} (h : (app.limited r w).1.Sets cs) :
    (app.respond r w).1.Sets cs :=
  Response.Sets.answering (sets_tellMethods h) _

/-- **Every response sets one of these lists of cookies.** -/
theorem respond_told (app : App ω) (r : Request) (w : World ω) :
    ∃ cs, (app.respond r w).1.Sets cs ∧ Told app r cs := by
  obtain ⟨cs, sets, told⟩ := setsLike_limited app r r.context w
  exact ⟨cs, sets_respond sets, told⟩

/-! ### Quiet cookies -/

theorem quiet_clearedState (secure : Bool) : Quiet (Setting.cleared stateCookie secure) :=
  .inr ⟨secure, .inr rfl⟩

/-- Of all these cookies only a state and a session are not quiet. -/
theorem Told.writes (h : Told app r cs) : Writes r cs := by
  cases h with
  | nothing => exact .quiet fun _ hc => absurd hc List.not_mem_nil
  | turnedAway =>
      refine .quiet fun c hc => ?_
      rcases List.mem_append.mp hc with stale | detour
      · exact quiet_stale app.gate c stale
      · exact quiet_detour app.gate c detour
  | begun seed path => exact .state path (quiet_stale app.gate)
  | unknown => exact .quiet (quiet_stale app.gate)
  | failed => exact .quiet fun c hc => List.mem_singleton.mp hc ▸ quiet_clearedState _
  | succeeded path ends =>
      rw [sessionSet]
      split
      · exact .session path ends.kept fun c hc => List.mem_singleton.mp hc ▸ quiet_redirect _ _ _ _
      · refine .quiet fun c hc => ?_
        simp only [List.cons_append, List.nil_append, List.mem_cons, List.not_mem_nil,
          or_false] at hc
        rcases hc with rfl | rfl
        · exact quiet_clearedState _
        · exact quiet_redirect _ _ _ _
  | signedOut =>
      refine .quiet fun c hc => ?_
      simp only [List.mem_cons, List.not_mem_nil, or_false] at hc
      rcases hc with rfl | rfl
      · exact .inr ⟨_, .inl rfl⟩
      · exact quiet_redirect _ _ _ _

theorem setsOnly_limited (app : App ω) (r : Request) : SetsOnly app.limited r := by
  intro context w
  obtain ⟨cs, sets, told⟩ := setsLike_limited app r context w
  exact ⟨cs, sets, told.writes⟩

/-- **Every response sets cookies of these kinds only.** -/
theorem respond_writes (app : App ω) (r : Request) (w : World ω) :
    ∃ cs, (app.respond r w).1.Sets cs ∧ Writes r cs := by
  obtain ⟨cs, sets, writes⟩ := setsOnly_limited app r r.context w
  exact ⟨cs, sets_respond sets, writes⟩

end Gatehouse.App
