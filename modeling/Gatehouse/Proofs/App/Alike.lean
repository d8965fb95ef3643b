import Gatehouse.App.Router
import Gatehouse.Proofs.Limit.Workspace

/-!
Two apps side by side.

Two computations are alike for a relation between their worlds when they keep the
worlds in the relation and give results that go together (`Act.Alike`). A relation
has to tell neither the clocks nor the draws apart, and has to survive what every
app counts (`Likeness`). Then two apps are as alike as their services and their
limiters are, whatever the relation is: it may forget a log, the state of a store,
or what a store got wrong.

* `App.alike_carried` has it of an app whose services are carried to two other states.
* `App.Alike.handlerOf` carries it from the services to every handler.
* `App.Alike.respond` carries it through all layers to the responses. These differ in
  their bodies at most, and there only as limiters, health and metrics do
  (`App.AlikeOn`).
-/

namespace Gatehouse

open Http Auth Limit

variable {ω ω' α α' β β' : Type} {R : World ω' → World ω → Prop}

/-! ### Computations -/

namespace Act

/-- From worlds in the relation `R` the computations give results in the relation
`Q`, and leave worlds in `R`. -/
def Alike (R : World ω' → World ω → Prop) (Q : α' → α → Prop) (x' : Act ω' α') (x : Act ω α) :
    Prop :=
  ∀ w' w, R w' w → Q (x' w').1 (x w).1 ∧ R (x' w').2 (x w).2

variable {Q : β' → β → Prop} {P : α' → α → Prop}

theorem Alike.pure {b' : β'} {b : β} (h : Q b' b) : Alike R Q (pure b') (pure b) :=
  fun _ _ start => ⟨h, start⟩

theorem Alike.bind {x' : Act ω' α'} {x : Act ω α} {f' : α' → Act ω' β'} {f : α → Act ω β}
    (first : Alike R P x' x) (rest : ∀ a' a, P a' a → Alike R Q (f' a') (f a)) :
    Alike R Q (x' >>= f') (x >>= f) := by
  intro w' w start
  obtain ⟨result, mid⟩ := first w' w start
  exact rest _ _ result _ _ mid

/-- Behind the same result it goes on with the same. -/
theorem Alike.andThen {x' : Act ω' α} {x : Act ω α} {f' : α → Act ω' β'} {f : α → Act ω β}
    (first : Alike R Eq x' x) (rest : ∀ a, Alike R Q (f' a) (f a)) :
    Alike R Q (x' >>= f') (x >>= f) := by
  refine first.bind ?_
  rintro a _ rfl
  exact rest a

theorem Alike.get {f' : World ω' → Act ω' β'} {f : World ω → Act ω β}
    (rest : ∀ w' w, R w' w → Alike R Q (f' w') (f w)) :
    Alike R Q (MonadState.get >>= f') (MonadState.get >>= f) :=
  fun w' w start => rest w' w start w' w start

theorem Alike.ite {c : Prop} [Decidable c] {x' y' : Act ω' β'} {x y : Act ω β}
    (yes : Alike R Q x' x) (no : Alike R Q y' y) :
    Alike R Q (if c then x' else y') (if c then x else y) := by
  split
  · exact yes
  · exact no

/-- What a service answers without a look at its state. -/
theorem Alike.ask_const (a : α) : Alike R Eq (ask fun o => (a, o)) (ask fun o => (a, o)) :=
  fun _ _ start => ⟨rfl, start⟩

end Act

/-- A relation between worlds that no app leads out of, as far as it does the same
in both: the clocks and the next draws agree. -/
structure Likeness (R : World ω' → World ω → Prop) : Prop where
  clock : ∀ w' w, R w' w → w'.clock = w.clock
  draw : Act.Alike R Eq Act.draw Act.draw
  authFailure : ∀ metered, Act.Alike R Eq (Act.record metered Metrics.recordAuthFailure)
    (Act.record metered Metrics.recordAuthFailure)
  callback : ∀ label, Act.Alike R Eq (Act.record true (Metrics.recordCallback label))
    (Act.record true (Metrics.recordCallback label))

theorem rel_map {A B C : Type} {P : B → C → Prop} {f : A → B} {g : A → C} (h : ∀ a, P (f a) (g a))
    (a : Option A) : Option.Rel P (a.map f) (a.map g) := by
  cases a with
  | none => exact .none
  | some a => exact .some (h a)

/-! ### The gate -/

namespace Auth.Gate

/-- Two gates whose services are alike, and which are the same otherwise. -/
structure Alike (R : World ω' → World ω → Prop) (g' : Gate ω') (g : Gate ω) : Prop where
  validator : Option.Rel (fun validate' validate => ∀ clock token,
    Act.Alike R Eq (Act.ask (validate' clock token)) (Act.ask (validate clock token)))
    g'.validator g.validator
  resolver : Option.Rel (fun resolve' resolve => ∀ name username email,
    Act.Alike R Eq (Act.ask (resolve' name username email)) (Act.ask (resolve name username email)))
    g'.resolver g.resolver
  allowMock : g'.allowMock = g.allowMock
  trustProxy : g'.trustProxy = g.trustProxy
  loginPath : g'.loginPath = g.loginPath
  metered : g'.metered = g.metered

/-- The gate with its services carried to another state. -/
def carried (carry : ∀ {α : Type}, (ω → α × ω) → ω' → α × ω') (g : Gate ω) : Gate ω' where
  validator := g.validator.map fun validate clock token => carry (validate clock token)
  resolver := g.resolver.map fun resolve name username email =>
    carry (resolve name username email)
  allowMock := g.allowMock
  trustProxy := g.trustProxy
  loginPath := g.loginPath
  metered := g.metered

@[simp] theorem carried_self (g : Gate ω) : g.carried (fun service => service) = g := by
  cases g
  simp [carried]

theorem alike_carried {ω₀ : Type} {carry' : ∀ {α : Type}, (ω₀ → α × ω₀) → ω' → α × ω'}
    {carry : ∀ {α : Type}, (ω₀ → α × ω₀) → ω → α × ω}
    (serves : ∀ {α : Type} (service : ω₀ → α × ω₀),
      Act.Alike R Eq (Act.ask (carry' service)) (Act.ask (carry service))) (g : Gate ω₀) :
    Alike R (g.carried carry') (g.carried carry) where
  validator := rel_map (fun validate clock token => serves (validate clock token)) _
  resolver := rel_map (fun resolve name username email => serves (resolve name username email)) _
  allowMock := rfl
  trustProxy := rfl
  loginPath := rfl
  metered := rfl

section Alike

variable {g' : Gate ω'} {g : Gate ω}

theorem Alike.jarOf (h : Alike R g' g) (r : Request) : g'.jarOf r = g.jarOf r := by
  rw [Gate.jarOf, Gate.jarOf, isSecure, isSecure, h.trustProxy]

theorem Alike.turnAway (h : Alike R g' g) (r : Request) (jar : Jar) :
    g'.turnAway r jar = g.turnAway r jar := by
  rw [Gate.turnAway, Gate.turnAway, h.loginPath]

theorem Alike.resolve (h : Alike R g' g) (claims : Claims) :
    Act.Alike R Eq (g'.resolve claims) (g.resolve claims) := by
  unfold Gate.resolve
  cases claims.needsResolution with
  | false => exact .pure rfl
  | true =>
      have resolvers := h.resolver
      revert resolvers
      generalize g'.resolver = resolver', g.resolver = resolver
      rintro (asked | -)
      · refine .andThen (asked _ _ _) fun reply => ?_
        cases reply.within .timedOut with
        | error fault => exact .pure rfl
        | ok id => exact .ite (.pure rfl) (.pure rfl)
      · exact .pure rfl

theorem Alike.active? (h : Alike R g' g) :
    Option.Rel (fun validate' validate => ∀ clock token,
      Act.Alike R Eq (Act.ask (validate' clock token)) (Act.ask (validate clock token)))
      g'.active? g.active? := by
  unfold Gate.active?
  have validators := h.validator
  revert validators
  rw [h.allowMock]
  generalize g'.validator = validator', g.validator = validator
  rintro (asked | -)
  · exact .some asked
  · cases g.allowMock with
    | false => exact .none
    | true => exact .some fun _ _ => .ask_const _

theorem Alike.authenticate (likeness : Likeness R) (h : Alike R g' g) (token : String) :
    Act.Alike R Eq (g'.authenticate token) (g.authenticate token) := by
  unfold Gate.authenticate
  have validators := h.active?
  revert validators
  generalize g'.active? = validator', g.active? = validator
  rintro (asked | -)
  · refine .get fun w' w start => ?_
    rw [likeness.clock w' w start]
    refine .andThen (asked _ _) fun reply => ?_
    cases reply.within .timedOut with
    | error fault => exact .pure rfl
    | ok claims => exact h.resolve claims
  · exact .pure rfl

theorem Alike.identify (likeness : Likeness R) (h : Alike R g' g) (jar : Jar) :
    Act.Alike R Eq (g'.identify jar) (g.identify jar) := by
  unfold Gate.identify
  cases jar.session? with
  | none => exact .pure rfl
  | some token =>
      refine .andThen (h.authenticate likeness token) fun found => ?_
      cases found <;> exact .pure rfl

end Alike

end Auth.Gate

/-! ### Handlers and layers -/

/-- Responses that differ in their bodies at most, and there as `B` allows. -/
structure Http.Response.Alike (B : Body → Body → Prop) (a' a : Response) : Prop where
  status : a'.status = a.status
  headers : a'.headers = a.headers
  body : B a'.body a.body

/-- Handlers that are alike on the requests for a path. -/
def Handler.Alike (R : World ω' → World ω → Prop) (path : String) (B : Body → Body → Prop)
    (h' : Handler ω') (h : Handler ω) : Prop :=
  ∀ r : Request, r.path = path → Act.Alike R (Response.Alike B) (h' r) (h r)

/-- Layers that make like handlers of like ones. -/
def Layer.Alike (R : World ω' → World ω → Prop) (path : String) (B : Body → Body → Prop)
    (l' : Layer ω') (l : Layer ω) : Prop :=
  ∀ next' next, Handler.Alike R path B next' next → Handler.Alike R path B (l' next') (l next)

section Layers

variable {path : String} {B : Body → Body → Prop}

theorem Http.Response.Alike.refl (same : ∀ b, B b b) (a : Response) :
    Response.Alike B a a :=
  ⟨rfl, rfl, same a.body⟩

theorem Http.Response.Alike.ofJson (status : Nat) {content' content : Json}
    (h : B (.json content') (.json content)) :
    Response.Alike B (.ofJson status content') (.ofJson status content) :=
  ⟨rfl, rfl, h⟩

theorem Http.Response.Alike.ofText (status : Nat) (kind : String) {content' content : String}
    (h : B (.text content') (.text content)) :
    Response.Alike B (.ofText status kind content') (.ofText status kind content) :=
  ⟨rfl, rfl, h⟩

theorem Http.Response.Alike.eq {a' a : Response} (h : Response.Alike Eq a' a) : a' = a := by
  obtain ⟨status, headers, body⟩ := h
  cases a'
  cases a
  exact congr (congr (congrArg Response.mk status) headers) body

theorem Http.Response.Alike.mapHeaders {a' a : Response} (h : Response.Alike B a' a)
    (f : Headers → Headers) :
    Response.Alike B (a'.mapHeaders f) (a.mapHeaders f) :=
  ⟨h.status, congrArg f h.headers, h.body⟩

theorem Http.Response.Alike.insertText {a' a : Response} (h : Response.Alike B a' a)
    (name text : String) :
    Response.Alike B (a'.insertText name text) (a.insertText name text) := by
  rw [Response.insertText, Response.insertText]
  split
  · exact h.mapHeaders _
  · exact h

theorem Http.Response.Alike.answering {a' a : Response} (h : Response.Alike B a' a)
    (same : ∀ b, B b b) (method : String) :
    Response.Alike B (a'.answering method) (a.answering method) := by
  rw [Response.answering, Response.answering]
  split
  · exact ⟨h.status, h.headers, same _⟩
  · exact h

/-- Computations with one and the same response. -/
theorem Act.Alike.same {x' : Act ω' Response} {x : Act ω Response} (h : Act.Alike R Eq x' x)
    (same : ∀ b, B b b) : Act.Alike R (Response.Alike B) x' x := by
  intro w' w start
  obtain ⟨result, after⟩ := h w' w start
  exact ⟨result ▸ .refl same _, after⟩

theorem Act.Alike.eq {x' : Act ω' Response} {x : Act ω Response}
    (h : Act.Alike R (Response.Alike Eq) x' x) : Act.Alike R Eq x' x := by
  intro w' w start
  obtain ⟨like, after⟩ := h w' w start
  exact ⟨like.eq, after⟩

theorem Act.Alike.mapHeaders {x' : Act ω' Response} {x : Act ω Response}
    (h : Act.Alike R (Response.Alike B) x' x) (f : Headers → Headers) :
    Act.Alike R (Response.Alike B) (x' >>= fun a => Pure.pure (a.mapHeaders f))
      (x >>= fun a => Pure.pure (a.mapHeaders f)) :=
  h.bind fun _ _ like => .pure (like.mapHeaders f)

theorem Limit.alike_extractWorkspace (same : ∀ b, B b b) :
    Layer.Alike R path B extractWorkspace extractWorkspace := by
  intro next' next like r here
  unfold extractWorkspace
  rcases workspaceOf r with fault | _ | id
  · exact .pure (.refl same _)
  · exact like r here
  · exact like (r.withWorkspace id) here

theorem Auth.Gate.Alike.require {g' : Gate ω'} {g : Gate ω} (likeness : Likeness R)
    (h : g'.Alike R g) (same : ∀ b, B b b) : Layer.Alike R path B g'.require g.require := by
  intro next' next like r here
  unfold Gate.require
  rw [h.jarOf]
  refine .andThen (h.identify likeness _) fun found => ?_
  obtain ⟨session, jar⟩ := found
  cases session with
  | known user => exact like (r.withUser user) here
  | missing | rejected =>
      simp only [h.metered, h.turnAway]
      exact .andThen (likeness.authFailure _) fun _ => .pure (.refl same _)

theorem Auth.Gate.Alike.optional {g' : Gate ω'} {g : Gate ω} (likeness : Likeness R)
    (h : g'.Alike R g) : Layer.Alike R path B g'.optional g.optional := by
  intro next' next like r here
  unfold Gate.optional
  rw [h.jarOf]
  refine .andThen (h.identify likeness _) fun found => ?_
  obtain ⟨session, jar⟩ := found
  cases session with
  | known user => exact (like (r.withUser user) here).mapHeaders _
  | missing | rejected => exact (like r here).mapHeaders _

/-- Limiters with the same rules are as alike as the checks of their stores. -/
theorem Limit.Limiter.alike_guard {l' : Limiter ω'} {l : Limiter ω} (keys : l'.keyFor = l.keyFor)
    (caps : l'.capFor = l.capFor) (rejects : l'.reject = l.reject) (same : ∀ b, B b b)
    (checks : Option.Rel (fun store' store => ∀ key cap, Act.Alike R Eq
      (check store' l'.deadline key cap l'.window) (check store l.deadline key cap l.window))
      l'.store l.store)
    (faults : Act.Alike R Eq (Act.record l'.metered Metrics.recordStoreFault)
      (Act.record l.metered Metrics.recordStoreFault))
    (rejections : Act.Alike R Eq (Act.record l'.metered (Metrics.recordRejection l'.name))
      (Act.record l.metered (Metrics.recordRejection l.name))) :
    Layer.Alike R path B l'.guard l.guard := by
  intro next' next like r here
  unfold Limiter.guard
  rw [keys]
  revert checks
  generalize l'.store = store', l.store = store
  rintro (checks | -)
  · cases l.keyFor r with
    | none => exact like r here
    | some key =>
        simp only [Limiter.gate, caps, rejects]
        refine .andThen (checks key _) fun verdict => ?_
        cases verdict with
        | error fault => exact .andThen faults fun _ => like r here
        | ok win =>
            exact .ite (.andThen rejections fun _ => .pure (.refl same _))
              ((like r here).mapHeaders _)
  · exact like r here

end Layers

/-! ### Apps -/

/-- A store whose state stands before that of the services. -/
def Store.inFront {σ : Type} (s : Store σ) : Store (σ × ω) :=
  s.lift Prod.fst fun part w => (part, w.2)

/-- A service that stands beside the state of a store. -/
def aside {σ : Type} (service : ω → α × ω) : σ × ω → α × (σ × ω) :=
  Store.onPart Prod.snd (fun o w => (w.1, o)) service

namespace App

/-- Two apps whose services are alike. -/
structure Alike (R : World ω' → World ω → Prop) (app' : App ω') (app : App ω) : Prop where
  likeness : Likeness R
  gate : app'.gate.Alike R app.gate
  provider : Option.Rel (fun (p' : OAuth.Provider ω') (p : OAuth.Provider ω) =>
    p'.authorizationUrl = p.authorizationUrl ∧ ∀ code address,
      Act.Alike R Eq (Act.ask (p'.exchange code address)) (Act.ask (p.exchange code address)))
    app'.provider app.provider
  landing : app'.landing = app.landing
  ping : Option.Rel (fun ping' ping => Act.Alike R Eq (Act.ask ping') (Act.ask ping))
    app'.ping app.ping

/-- Two apps whose limiters are alike on the requests for a path, and whose routes of
health and of metrics are if the path is theirs. -/
structure AlikeOn (R : World ω' → World ω → Prop) (path : String) (B : Body → Body → Prop)
    (app' : App ω') (app : App ω) : Prop where
  same : ∀ b, B b b
  client : Layer.Alike R path B app'.clientLimiter.guard app.clientLimiter.guard
  endpoint : Layer.Alike R path B app'.endpointLimiter.guard app.endpointLimiter.guard
  user : Layer.Alike R path B app'.userLimiter.guard app.userLimiter.guard
  workspace : Layer.Alike R path B app'.workspaceLimiter.guard app.workspaceLimiter.guard
  health : path = "/health" → Handler.Alike R path B app'.health app.health
  metrics : path = "/metrics" → Handler.Alike R path B metrics metrics

/-- The app over another store, with its services carried to the state of that one. -/
def carried (carry : ∀ {α : Type}, (ω → α × ω) → ω' → α × ω') (store : Option (Store ω'))
    (app : App ω) : App ω' where
  store := store
  limit := app.limit
  burst := app.burst
  window := app.window
  skipPaths := app.skipPaths
  deadline := app.deadline
  endpoints := app.endpoints
  workspaceLimit := app.workspaceLimit
  workspaceLimits := app.workspaceLimits
  gate := app.gate.carried carry
  provider := app.provider.map fun p => ⟨p.authorizationUrl, fun code address =>
    carry (p.exchange code address)⟩
  landing := app.landing
  ping := app.ping.map carry

section Carried

variable {ω₀ : Type} {carry' : ∀ {α : Type}, (ω₀ → α × ω₀) → ω' → α × ω'}
  {carry : ∀ {α : Type}, (ω₀ → α × ω₀) → ω → α × ω}

/-- An app is alike with itself when its services, carried to two states, reply the
same. -/
theorem alike_carried (likeness : Likeness R)
    (serves : ∀ {α : Type} (service : ω₀ → α × ω₀),
      Act.Alike R Eq (Act.ask (carry' service)) (Act.ask (carry service)))
    (app : App ω₀) (store' : Option (Store ω')) (store : Option (Store ω)) :
    Alike R (app.carried carry' store') (app.carried carry store) where
  likeness := likeness
  gate := app.gate.alike_carried serves
  provider := rel_map (fun p => ⟨rfl, fun code address => serves (p.exchange code address)⟩) _
  landing := rfl
  ping := rel_map (P := fun ping' ping => Act.Alike R Eq (Act.ask ping') (Act.ask ping)) serves _

/-- The app over a store with a state of its own. -/
def withStore {σ : Type} (app : App ω) (s : Store σ) : App (σ × ω) :=
  app.carried aside (some s.inFront)

def withoutStore (app : App ω) : App ω :=
  app.carried (fun service => service) none

@[simp] theorem carried_self (app : App ω) :
    app.carried (fun service => service) app.store = app := by
  cases app
  simp [carried]

end Carried

variable {path : String} {B : Body → Body → Prop} {app' : App ω'} {app : App ω}

namespace Alike

theorem returnAddress (h : Alike R app' app) (r : Request) :
    app'.returnAddress r = app.returnAddress r := by
  rw [App.returnAddress, App.returnAddress, Gate.isSecure, Gate.isSecure, h.gate.trustProxy]

theorem loginLink (h : Alike R app' app) (r : Request) (state : String) :
    app'.loginLink r state = app.loginLink r state := by
  unfold App.loginLink
  rw [h.returnAddress]
  have providers := h.provider
  revert providers
  generalize app'.provider = provider', app.provider = provider
  rintro (⟨urls, -⟩ | -)
  · simp only [urls]
  · rfl

theorem login (h : Alike R app' app) (r : Request) :
    Act.Alike R Eq (app'.login r) (app.login r) := by
  unfold App.login
  rw [h.landing, h.gate.jarOf]
  refine .ite (.pure rfl) (.andThen h.likeness.draw fun seed => ?_)
  simp only [h.loginLink]
  exact .pure rfl

theorem fail (h : Alike R app' app) (o : Outcome) (jar : Jar) :
    Act.Alike R Eq (app'.fail o jar) (app.fail o jar) := by
  unfold App.fail
  rw [h.gate.loginPath]
  exact .andThen (h.likeness.callback _) fun _ => .pure rfl

theorem succeed (h : Alike R app' app) (g : OAuth.Grant) (jar : Jar) :
    Act.Alike R Eq (app'.succeed g jar) (app.succeed g jar) := by
  have target : app'.targetOf jar = app.targetOf jar := by
    rw [App.targetOf, App.targetOf, h.landing]
  unfold App.succeed
  rw [target]
  exact .andThen (h.likeness.callback _) fun _ => .pure rfl

theorem grantFor (h : Alike R app' app) (code : String) (r : Request) :
    Act.Alike R Eq (app'.grantFor code r) (app.grantFor code r) := by
  unfold App.grantFor
  rw [h.returnAddress]
  have providers := h.provider
  revert providers
  generalize app'.provider = provider', app.provider = provider
  rintro (⟨-, asked⟩ | -)
  · exact asked code _
  · exact .pure rfl

theorem finishLogin (h : Alike R app' app) (p : CallbackParams) (r : Request) :
    Act.Alike R Eq (app'.finishLogin p r) (app.finishLogin p r) := by
  unfold App.finishLogin
  rw [h.gate.jarOf]
  refine .ite (h.fail _ _) (.ite (h.fail _ _) (.ite (h.fail _ _) ?_))
  refine .andThen (h.grantFor p.code r) fun granted => ?_
  cases granted with
  | error fault => exact h.fail _ _
  | ok grant => exact h.succeed grant _

theorem callback (h : Alike R app' app) (r : Request) :
    Act.Alike R Eq (app'.callback r) (app.callback r) := by
  unfold App.callback
  cases CallbackParams.read (r.target.query.getD "") with
  | error name => exact .pure rfl
  | ok p => exact h.finishLogin p r

theorem logout (h : Alike R app' app) (r : Request) :
    Act.Alike R Eq (app'.logout r) (app.logout r) := by
  unfold App.logout
  rw [h.gate.jarOf, h.gate.loginPath]
  exact .pure rfl

theorem isHealthy (h : Alike R app' app) : Act.Alike R Eq app'.isHealthy app.isHealthy := by
  unfold App.isHealthy
  have pings := h.ping
  revert pings
  generalize app'.ping = ping', app.ping = ping
  rintro (asked | -)
  · exact asked
  · exact .pure rfl

/-- Where the kinds of the stores agree, nothing shows in the route of health. -/
theorem health (h : Alike R app' app) (kind : app'.storeKind = app.storeKind) (r : Request) :
    Act.Alike R Eq (app'.health r) (app.health r) := by
  unfold App.health
  rw [kind]
  exact .andThen h.isHealthy fun healthy => .pure rfl

/-- **Handlers are alike as their services are**, those of health and metrics apart. -/
theorem handlerOf (h : Alike R app' app) (same : ∀ b, B b b) {route : Route}
    (health : route = .health → Handler.Alike R path B app'.health app.health)
    (metrics : route = .metrics → Handler.Alike R path B metrics metrics) :
    Handler.Alike R path B (app'.handlerOf route) (app.handlerOf route) := by
  intro r here
  cases route with
  | health => exact health rfl r here
  | metrics => exact metrics rfl r here
  | login => exact (h.login r).same same
  | callback => exact (h.callback r).same same
  | logout => exact (h.logout r).same same
  | me => exact .pure (.refl same _)
  | workspaces => exact .pure (.refl same _)
  | workspace segment => exact .pure (.refl same _)

theorem meteredGate (h : Alike R app' app) : app'.meteredGate.Alike R app.meteredGate :=
  { h.gate with metered := rfl }

theorem layersOf (h : Alike R app' app) (on : AlikeOn R path B app' app) (route : Route) :
    Layer.Alike R path B (app'.layersOf route) (app.layersOf route) := by
  intro next' next like
  unfold App.layersOf
  split
  · refine h.meteredGate.require h.likeness on.same _ _ (on.user _ _ ?_)
    exact alike_extractWorkspace on.same _ _ (on.workspace _ _ like)
  · split
    · exact h.meteredGate.optional h.likeness _ _ like
    · exact like

theorem routed (h : Alike R app' app) (on : AlikeOn R path B app' app) :
    Handler.Alike R path B app'.routed app.routed := by
  intro r here
  unfold App.routed
  rw [here]
  cases named : Route.ofPath? path with
  | none => exact .pure (.refl on.same _)
  | some route =>
      refine h.layersOf on route _ _ ?_ r here
      split
      · refine h.handlerOf on.same (fun own => on.health ?_) fun own => on.metrics ?_
        · simpa [Route.fixed, own] using Route.mem_fixed_of_ofPath? named (by simp [own])
        · simpa [Route.fixed, own] using Route.mem_fixed_of_ofPath? named (by simp [own])
      · exact fun _ _ => .pure (.refl on.same _)

/-- **Apps with like services and like limiters respond alike.** -/
theorem respond (h : Alike R app' app) (on : AlikeOn R path B app' app) :
    Handler.Alike R path B app'.respond app.respond := by
  intro r here
  have limited := on.client _ _ (on.endpoint _ _ (h.routed on)) r here
  refine limited.bind fun a' a like => .pure ?_
  refine Response.Alike.answering ?_ on.same r.method
  unfold tellMethods
  cases Route.ofPath? r.path with
  | none => exact like
  | some route =>
      dsimp only
      split
      · exact like
      · exact like.insertText _ _

end Alike

end App

end Gatehouse
