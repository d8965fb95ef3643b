import Gatehouse.Proofs.App.Walks

/-!
The stages of a request on its way to a route.

What an app is to count for a request, and where it is to refuse it, is listed
without a store (`App.stages`): the client, the endpoint, and on a protected route
the user and the workspace. The layers of an app go through this list one by one.

* `around_walks` puts the stages of all layers in one row.
* `respond_counts_by_stages` is the account of a whole response: what is counted,
  and whether the route is reached.
-/

namespace Gatehouse

open Http Auth Limit

namespace App

variable {ω : Type}

/-! ### Stages -/

/-- The stage of a key, if there is a store to count it. -/
def counting (app : App ω) (key : String) (cap : Nat) : List Stage :=
  if app.store.isSome then [.count key cap] else []

def clientStages (app : App ω) (r : Request) : List Stage :=
  if app.skipPaths.contains r.path then []
  else app.counting ("ip:" ++ Limit.clientOf r) (capped app.limit app.burst)

/-- The stage of the endpoint, if it has a limit of its own. -/
def endpointStages (app : App ω) (r : Request) : List Stage :=
  if app.skipPaths.contains r.path then []
  else
    match app.endpoints.lookup? r.method r.path with
    | some limit => app.counting (r.method ++ ":" ++ r.path ++ ":" ++ Limit.clientOf r) limit
    | none => []

def userStages (app : App ω) (r : Request) (user : User) : List Stage :=
  if app.skipPaths.contains r.path then []
  else app.counting ("user:" ++ user.id.write) (capped app.limit app.burst)

/-- The stage of the workspace, if the request names one. -/
def workspaceStages (app : App ω) (r : Request) : List Stage :=
  match workspaceOf r with
  | .ok (some id) =>
      app.counting ("ws:" ++ id.write) ((app.workspaceLimits.lookup id).getD app.workspaceLimit)
  | .ok none => []
  | .error _ => [.refuse .malformed]

/-- The stages behind the gate, by who it lets in. -/
def sessionStages (app : App ω) (r : Request) : Option User → List Stage
  | some user => app.userStages r user ++ app.workspaceStages r
  | none => [.refuse .signedOut]

def isProtected (r : Request) : Bool :=
  (Route.ofPath? r.path).any Route.isProtected

/-- All stages of a request, by who the gate lets in, if the route has one. -/
def stages (app : App ω) (r : Request) (user? : Option User) : List Stage :=
  app.clientStages r ++ app.endpointStages r ++
    if isProtected r then app.sessionStages r user? else []

/-- The layers that every request goes through first. -/
def entry (app : App ω) : Layer ω := fun next =>
  app.clientLimiter.guard (app.endpointLimiter.guard next)

/-- The layers of the route of a request. -/
def inner (app : App ω) (r : Request) : Layer ω :=
  match Route.ofPath? r.path with
  | none => id
  | some route => app.layersOf route

/-- All layers around the route of a request. -/
def around (app : App ω) (r : Request) : Layer ω := fun next =>
  app.entry (app.inner r next)

/-- What answers a request that is not refused: the handler of its route, or what
says that there is none. -/
def routeFor (app : App ω) (r : Request) : Handler ω :=
  match Route.ofPath? r.path with
  | none => answer 404
  | some route => if route.methods.contains r.method then app.handlerOf route else answer 405

/-! ### The layers of an app -/

variable (app : App ω) {r : Request} {w : World ω} {key : String}

/-- A limiter with the store of an app counts the paths that it does not skip by its
rule. -/
theorem stages_of_rule {l : Limiter ω} (has : l.store = app.store)
    (filled : ∀ key, l.key.key? r = some key → key ≠ "") :
    l.stages r = if l.skipPaths.contains r.path then [] else
      match l.key.key? r with
      | some key => app.counting key (l.capFor r)
      | none => [] := by
  rw [Limiter.stages, Limiter.keyFor, has]
  by_cases skipped : l.skipPaths.contains r.path = true
  · rw [if_pos skipped, if_pos skipped]
    cases app.store <;> rfl
  · rw [if_neg skipped, if_neg skipped]
    cases ruled : l.key.key? r with
    | none => cases app.store <;> rfl
    | some key =>
        have kept : (some key).filter (fun key => !key.isEmpty) = some key := by
          simp [Option.filter_some, filled key ruled]
        rw [kept]
        unfold counting
        cases app.store <;> rfl

theorem stages_clientLimiter (r : Request) : app.clientLimiter.stages r = app.clientStages r := by
  have filled : "ip:" ++ Limit.clientOf r ≠ "" := by simp
  refine app.stages_of_rule rfl ?_
  rintro key ⟨⟩
  exact filled

/-- An endpoint is counted if it has a limit, up to exactly that limit. -/
theorem stages_endpointLimiter (r : Request) :
    app.endpointLimiter.stages r = app.endpointStages r := by
  have key : app.endpointLimiter.key.key? r = (app.endpoints.lookup? r.method r.path).map
      fun _ => r.method ++ ":" ++ r.path ++ ":" ++ Limit.clientOf r := rfl
  have cap : app.endpointLimiter.capFor r =
      (app.endpoints.lookup? r.method r.path).getD app.limit := Nat.add_zero _
  have rule := app.stages_of_rule (l := app.endpointLimiter) (r := r) rfl
  rw [key, cap] at rule
  unfold endpointStages
  cases own : app.endpoints.lookup? r.method r.path with
  | none =>
      rw [own] at rule
      exact rule nofun
  | some limit =>
      rw [own] at rule
      refine rule ?_
      rintro key ⟨⟩
      simp

theorem stages_userLimiter (r : Request) {user : User} (known : user.id ≠ Uuid.nil) :
    app.userLimiter.stages (r.withUser user) = app.userStages r user := by
  have named : user.id.isNil = false := Gate.isNil_eq_false_iff.mpr known
  have key : app.userLimiter.key.key? (r.withUser user) = some ("user:" ++ user.id.write) := by
    show ((some user).filter fun u => !u.id.isNil).map _ = _
    rw [Option.filter_some, named]
    rfl
  have rule := app.stages_of_rule (l := app.userLimiter) (r := r.withUser user) rfl
  rw [key] at rule
  refine rule ?_
  rintro key ⟨⟩
  simp

/-- A workspace is counted up to its own limit, if it has one. -/
theorem stages_workspaceLimiter (r : Request) :
    app.workspaceLimiter.asLimiter.stages r =
      match r.context.workspace with
      | some id =>
          app.counting ("ws:" ++ id.write) ((app.workspaceLimits.lookup id).getD app.workspaceLimit)
      | none => [] := by
  have key : app.workspaceLimiter.asLimiter.key.key? r =
      r.context.workspace.map WorkspaceLimiter.keyOf := rfl
  have rule := app.stages_of_rule (l := app.workspaceLimiter.asLimiter) (r := r) rfl
  rw [key] at rule
  cases own : r.context.workspace with
  | none =>
      rw [own] at rule
      exact rule nofun
  | some id =>
      rw [own, app.workspaceLimiter.capFor_asLimiter own] at rule
      refine rule ?_
      rintro key ⟨⟩
      simp [WorkspaceLimiter.keyOf]

theorem entry_walks (r : Request) (w : World ω) :
    Walks app.watched.entry app.entry r w r (app.clientStages r ++ app.endpointStages r) := by
  rw [← stages_clientLimiter, ← stages_endpointLimiter]
  exact (app.clientLimiter.walks r w rfl).comp
    fun inner _ _ => app.endpointLimiter.walks r inner rfl

/-- The workspace that a request names is counted, if it names one. -/
theorem workspace_walks (r : Request) (unnamed : r.context.workspace = none) :
    ∃ seen, ∀ w, Walks (fun next => extractWorkspace (app.watched.workspaceLimiter.guard next))
      (fun next => extractWorkspace (app.workspaceLimiter.guard next)) r w seen
      (app.workspaceStages r) := by
  have guard' : app.watched.workspaceLimiter.guard = app.workspaceLimiter.asLimiter.watched.guard :=
    WorkspaceLimiter.guard_eq _
  have walks := fun r w => app.workspaceLimiter.asLimiter.walks r w rfl
  simp only [stages_workspaceLimiter] at walks
  rw [guard', WorkspaceLimiter.guard_eq]
  unfold workspaceStages
  cases named : workspaceOf r with
  | error fault => exact ⟨r, fun w => (extractWorkspace_of_error w named r).comp_refuse _ _ r⟩
  | ok found =>
      refine ⟨(found.map r.withWorkspace).getD r, fun w =>
        (extractWorkspace_of_ok w named).comp fun inner _ _ => ?_⟩
      cases found with
      | none =>
          have passes := walks r inner
          rwa [unnamed] at passes
      | some id => exact walks (r.withWorkspace id) inner

/-- Behind the gate the user is counted, and then the workspace. -/
theorem protection_walks (r : Request) (w : World ω) (unnamed : r.context.workspace = none) :
    ∃ user? seen, (∀ user, user? = some user ↔ ∃ o, app.meteredGate.Admits w r user o) ∧
      Walks app.watched.protection app.protection r w seen (app.sessionStages r user?) := by
  obtain ⟨user?, admitted, gate⟩ := app.meteredGate.require_walks r w
  refine ⟨user?, ?_⟩
  cases user? with
  | none => exact ⟨r, admitted, gate.comp_refuse _ _ r⟩
  | some user =>
      obtain ⟨o, admits⟩ := (admitted user).mp rfl
      have users := fun inner => app.userLimiter.walks (r.withUser user) inner rfl
      rw [app.stages_userLimiter r admits.id_ne_nil] at users
      obtain ⟨seen, workspaces⟩ := app.workspace_walks (r.withUser user) unnamed
      exact ⟨seen, admitted, gate.comp fun inner _ _ =>
        (users inner).comp fun inner _ _ => workspaces inner⟩

/-- The layers of a route have stages if it is protected. -/
theorem layersOf_walks (route : Route) (r : Request) (w : World ω)
    (unnamed : r.context.workspace = none) :
    ∃ user? seen,
      (route.isProtected = true →
        ∀ user, user? = some user ↔ ∃ o, app.meteredGate.Admits w r user o) ∧
        Walks (app.watched.layersOf route) (app.layersOf route) r w seen
          (if route.isProtected then app.sessionStages r user? else []) := by
  unfold layersOf
  by_cases guarded : route.isProtected = true
  · obtain ⟨user?, seen, admitted, walks⟩ := app.protection_walks r w unnamed
    simp only [if_pos guarded]
    exact ⟨user?, seen, fun _ => admitted, walks⟩
  · simp only [if_neg guarded]
    by_cases login : route = .login
    · obtain ⟨seen, walks⟩ := app.meteredGate.optional_walks r w
      simp only [if_pos login]
      exact ⟨none, seen, fun yes => absurd yes guarded, walks⟩
    · simp only [if_neg login]
      exact ⟨none, r, fun yes => absurd yes guarded,
        .pass (fun _ => rfl) (fun _ => rfl) fun _ _ => rfl⟩

theorem inner_walks (r : Request) (w : World ω) (unnamed : r.context.workspace = none) :
    ∃ user? seen,
      (isProtected r = true →
        ∀ user, user? = some user ↔ ∃ o, app.meteredGate.Admits w r user o) ∧
        Walks (app.watched.inner r) (app.inner r) r w seen
          (if isProtected r then app.sessionStages r user? else []) := by
  unfold inner isProtected
  cases Route.ofPath? r.path with
  | none => exact ⟨none, r, nofun, .pass (fun _ => rfl) (fun _ => rfl) fun _ _ => rfl⟩
  | some route => exact app.layersOf_walks route r w unnamed

/-- All layers together go through all stages. -/
theorem around_walks (r : Request) (w : World ω) (unnamed : r.context.workspace = none) :
    ∃ user? seen,
      (∀ inner f, app.entry.Forwards r w r inner f → isProtected r = true →
        ∀ user, user? = some user ↔ ∃ o, app.meteredGate.Admits inner r user o) ∧
      Walks (app.watched.around r) (app.around r) r w seen (app.stages r user?) := by
  have entry := app.entry_walks r w
  by_cases passed : ∃ inner f, app.entry.Forwards r w r inner f
  · obtain ⟨inner, f, forwards⟩ := passed
    obtain ⟨user?, seen, admitted, walks⟩ := app.inner_walks r inner unnamed
    refine ⟨user?, seen, fun inner' f' forwards' => ?_, entry.comp fun inner' f' forwards' => ?_⟩
    · exact forwards.unique forwards' ▸ admitted
    · exact forwards.unique forwards' ▸ walks
  · exact ⟨none, r, fun inner f forwards => absurd ⟨inner, f, forwards⟩ passed,
      entry.comp fun inner f forwards => absurd ⟨inner, f, forwards⟩ passed⟩

/-! ### Whole responses -/

/-- Around a protected route stand the gate and the limiters behind it. -/
theorem inner_of_protected (guarded : isProtected r = true) : app.inner r = app.protection := by
  unfold isProtected at guarded
  unfold inner
  cases named : Route.ofPath? r.path with
  | none => simp [named] at guarded
  | some route =>
      have own : route.isProtected = true := by simpa [named] using guarded
      exact if_pos own

theorem ofPath?_of_callback (route : r.path = callbackPath) :
    Route.ofPath? r.path = some .callback := by
  rw [route]
  decide

/-- Nothing stands around the handler of callbacks. -/
theorem inner_of_callback (route : r.path = callbackPath) : app.inner r = id := by
  unfold inner
  rw [ofPath?_of_callback route]
  rfl

theorem routeFor_of_callback (route : r.path = callbackPath)
    (allowed : Route.callback.methods.contains r.method = true) :
    app.routeFor r = app.callback := by
  unfold routeFor
  rw [ofPath?_of_callback route]
  exact if_pos allowed

theorem ofPath?_of_login (route : r.path = "/login") : Route.ofPath? r.path = some .login := by
  rw [route]
  decide

/-- Around the handler of logins stands the gate that lets everyone through. -/
theorem inner_of_login (route : r.path = "/login") : app.inner r = app.meteredGate.optional := by
  unfold inner
  rw [ofPath?_of_login route]
  rfl

theorem routeFor_of_login (route : r.path = "/login")
    (allowed : Route.login.methods.contains r.method = true) : app.routeFor r = app.login := by
  unfold routeFor
  rw [ofPath?_of_login route]
  exact if_pos allowed

theorem silent_routeFor (r seen : Request) :
    Act.Silent (app.watched.routeFor r seen) (app.routeFor r seen) := by
  unfold routeFor
  cases Route.ofPath? r.path with
  | none => exact .pure _
  | some route =>
      by_cases allowed : route.methods.contains r.method = true
      · simp only [allowed, if_true]
        exact app.silent_handlerOf route seen
      · simp only [allowed]
        exact .pure _

theorem limited_eq (r : Request) (w : World ω) :
    app.limited r w = app.around r (app.routeFor r) r w := by
  have routed : app.routed r = app.inner r (app.routeFor r) r := by
    unfold routed inner routeFor
    cases Route.ofPath? r.path <;> rfl
  have endpoint : app.endpointLimiter.guard app.routed r =
      app.endpointLimiter.guard (app.inner r (app.routeFor r)) r :=
    funext fun w => app.endpointLimiter.guard_congr r w routed
  exact app.clientLimiter.guard_congr r w endpoint

theorem respond_apply (r : Request) (w : World ω) :
    app.respond r w =
      ((tellMethods r (app.limited r w).1).answering r.method, (app.limited r w).2) :=
  rfl

/-- A method of the route is not told of others. -/
theorem tellMethods_of_allowed {route : Route} (named : Route.ofPath? r.path = some route)
    (allowed : route.methods.contains r.method = true) (response : Response) :
    tellMethods r response = response := by
  rw [tellMethods, named]
  exact if_pos allowed

theorem status_respond (r : Request) (w : World ω) :
    (app.respond r w).1.status = (app.limited r w).1.status := by
  have told : (tellMethods r (app.limited r w).1).status = (app.limited r w).1.status := by
    unfold tellMethods
    cases Route.ofPath? r.path with
    | none => rfl
    | some route =>
        dsimp only
        split
        · rfl
        · exact Response.status_insertText _ _ _
  rw [respond_apply, ← told, Response.answering]
  split <;> rfl

/-- What becomes of a request: who the gate lets in, what is counted, and what
refuses it, if anything does. -/
structure Passage (app : App ω) (r : Request) (w : World ω) (user? : Option User) (counts : Log)
    (why : Option Refusal) : Prop where
  /-- The gate looks at the request when the limiters before it let it through. -/
  session : ∀ inner f, app.entry.Forwards r w r inner f → isProtected r = true →
    ∀ user, user? = some user ↔ ∃ o, app.meteredGate.Admits inner r user o
  fares : Fares (app.stages r user?) counts why
  /-- The counts are all that a watched store notes; nothing else differs. -/
  noted : ∀ log, app.watched.respond r (w.logging log) =
    ((app.respond r w).1, (app.respond r w).2.logging (log ++ counts))
  reached : why = none ↔ (app.around r).Runs r w
  told : ∀ refusal, why = some refusal →
    (∃ response after, (app.around r).Answers r w response after) ∧
      refusal.Tells (app.respond r w).1

/-- What the layers of an app do beside a log, the app does. -/
theorem respond_watched {r : Request} {w : World ω} {log counts : Log}
    (same : app.watched.around r (app.watched.routeFor r) r (w.logging log) =
      ((app.around r (app.routeFor r) r w).1,
        (app.around r (app.routeFor r) r w).2.logging (log ++ counts))) :
    app.watched.respond r (w.logging log) =
      ((app.respond r w).1, (app.respond r w).2.logging (log ++ counts)) := by
  rw [respond_apply, respond_apply, limited_eq, limited_eq, same]

/-- What is counted for a request is how it fares at its stages, and its route is reached
when no stage refuses it. -/
theorem respond_fares (app : App ω) {r : Request} (unnamed : r.context.workspace = none)
    (w : World ω) :
    ∃ user? counts why,
      (∀ inner f, app.entry.Forwards r w r inner f → isProtected r = true →
        ∀ user, user? = some user ↔ ∃ o, app.meteredGate.Admits inner r user o) ∧
      Fares (app.stages r user?) counts why ∧ (why = none ↔ (app.around r).Runs r w) ∧
      ∀ log, app.watched.respond r (w.logging log) =
        ((app.respond r w).1, (app.respond r w).2.logging (log ++ counts)) := by
  obtain ⟨user?, seen, admitted, walks⟩ := app.around_walks r w unnamed
  obtain ⟨counts, why, fares, reached, noted⟩ := walks.counts (app.silent_routeFor r seen)
  exact ⟨user?, counts, why, admitted, fares, reached, fun log => app.respond_watched (noted log)⟩

/-- A route that is not protected is reached unless a limiter answers. -/
theorem runs_of_status (app : App ω) {r : Request} (unnamed : r.context.workspace = none)
    (free : isProtected r = false) {w : World ω} (passed : (app.respond r w).1.status ≠ 429) :
    (app.around r).Runs r w := by
  obtain ⟨user?, seen, -, walks⟩ := app.around_walks r w unnamed
  cases walks with
  | through _ _ forwards _ => exact forwards.runs
  | @refused counts why response after fares tells answers _ =>
      have only : ∀ why, .refuse why ∉ app.stages r user? := by
        intro why mem
        simp only [stages, free, clientStages, endpointStages, counting] at mem
        grind
      obtain rfl := fares.eq_limited only
      rw [status_respond, limited_eq, answers] at passed
      exact absurd (tells 429 rfl) passed

/-- **A request is counted stage by stage.** What an app answers is what its layers
make of the route of the request. -/
theorem respond_counts_by_stages (app : App ω) {r : Request} (arrives : r.context = {})
    (w : World ω) :
    app.limited r w = app.around r (app.routeFor r) r w ∧
      ∃ user? counts why, app.Passage r w user? counts why := by
  refine ⟨app.limited_eq r w, ?_⟩
  obtain ⟨user?, seen, admitted, walks⟩ := app.around_walks r w (by rw [arrives])
  cases walks with
  | @through counts inner f fares keeps forwards forwards' =>
      refine ⟨user?, counts, none, admitted, fares, fun log => ?_, ?_, nofun⟩
      · refine app.respond_watched ?_
        rw [forwards, forwards' log, app.silent_routeFor r seen inner (log ++ counts)]
      · exact ⟨fun _ => forwards.runs, fun _ => rfl⟩
  | @refused counts why response after fares tells answers answers' =>
      refine ⟨user?, counts, some why, admitted, fares, fun log => ?_, ?_, ?_⟩
      · refine app.respond_watched ?_
        rw [answers, answers' log]
      · exact ⟨nofun, fun runs => absurd runs answers.not_runs⟩
      · rintro refusal ⟨⟩
        refine ⟨⟨response, after, answers⟩, fun status is => ?_⟩
        rw [status_respond, limited_eq, answers]
        exact tells status is

/-- A store that is slow for clients, fails for endpoints, and has counted many
requests of every workspace. -/
def moodyStore : Store Unit where
  increment _ key _ w :=
    (match key.toList with
      | 'i' :: _ => .stalled
      | 'G' :: _ => .failed "connection refused"
      | 'u' :: _ => .ready 1
      | _ => .ready 1001, w)
  count _ _ w := (.ready 0, w)
  ttl _ _ w := (.stalled, w)

/-- An app in which every session is that of the user with the id of the workspace. -/
def crowdedApp : App Unit where
  store := some moodyStore
  endpoints := .ofList [("GET:/workspaces/*", 5)]
  gate := { validator := some fun _ _ w =>
    (.ready (Claims.ofId ⟨Vector.replicate 32 ⟨1, by decide⟩⟩), w) }

def crowdedPath : String := "/workspaces/11111111111111111111111111111111"

/-- A request for a page of the workspace, with a session. -/
def crowdedVisit : Request where
  method := "GET"
  target := ⟨none, none, crowdedPath, none⟩
  headers := [("cookie", Bytes.ofText "flowra_session=abc")]

/-- Neither a slow store nor a failing one keeps the request from its last stage. -/
theorem crowded_workspace_counts_all :
    crowdedVisit.context = {} ∧
      ∃ user? counts why, crowdedApp.Passage crowdedVisit (.fresh ()) user? counts why ∧
        counts = [("ip:unknown", .stalled),
          ("GET:/workspaces/11111111111111111111111111111111:unknown",
            .failed "connection refused"),
          ("user:11111111-1111-1111-1111-111111111111", .ready 1),
          ("ws:11111111-1111-1111-1111-111111111111", .ready 1001)] := by
  have arrives : crowdedVisit.context = {} := rfl
  obtain ⟨-, user?, counts, why, passage⟩ :=
    respond_counts_by_stages crowdedApp arrives (.fresh ())
  refine ⟨arrives, user?, counts, why, passage, ?_⟩
  have noted := congrArg (fun p => p.2.outside.1) (passage.noted [])
  exact noted.symm.trans (by decide)

end App

end Gatehouse
