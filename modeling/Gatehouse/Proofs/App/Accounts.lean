import Gatehouse.Proofs.App.FailOpen
import Gatehouse.Proofs.App.SkipPaths
import Gatehouse.Proofs.Assoc

/-!
What the metrics say of the requests that an app has answered.

A request goes through a row of layers until one of them answers it, or to its
handler behind all of them; what it comes to is its fate (`Meets`), and it has exactly
one (`Meets.unique`, `meets_of_keeps`). Each layer counts what it answers as that
fate and nothing else, failures of the store apart (`Keeps`).

* `respond_books` has the fate of one request, with what its response shows and
  what is counted for it; `serve_accounts` has the fates of a run.
* `serve_noted` sets the counted failures of the store against the replies of the
  store in a run.
* `metrics_account_for_requests` puts both together.
-/

namespace Gatehouse

open Http Auth Limit

variable {ω : Type}

/-! ### Fates -/

/-- What a request comes to. -/
inductive Fate where
  /-- The limiter with the name refuses it. -/
  | limited (limiter : String)
  /-- The gate of protected routes turns it away. -/
  | signedOut
  /-- Its workspace is malformed. -/
  | malformed
  /-- The handler of callbacks answers it. -/
  | calledBack
  /-- Something else answers it. -/
  | answered
  deriving DecidableEq, Repr

namespace Fate

def isLimited : Fate → Bool
  | limited _ => true
  | _ => false

end Fate

/-- The metrics without the failures of the store. -/
def Metrics.settled (m : Metrics) : Metrics :=
  { m with storeFaults := 0 }

/-- What is counted for a fate. -/
def Fate.Books (m m' : Metrics) : Fate → Prop
  | limited limiter => m'.settled = m.settled.recordRejection limiter
  | signedOut => m'.settled = m.settled.recordAuthFailure
  | calledBack => ∃ outcome, m'.settled = m.settled.recordCallback outcome
  | malformed | answered => m'.settled = m.settled

/-- A row of layers, the outermost first, each with the fate of what it answers. -/
abbrev Row (ω : Type) := List (Layer ω × Fate)

/-- The layers of a row around each other. -/
def Row.layer (row : Row ω) : Layer ω :=
  fun next => row.foldr (fun l inner => l.1 inner) next

/-- The fate of a request in a row of layers: that of the first layer that answers it, or the
last one where all let it through. -/
inductive Meets (last : Fate) : Row ω → Request → World ω → Fate → Prop where
  | stops {layer : Layer ω} {fate : Fate} {row : Row ω} {r : Request} {w after : World ω}
      {response : Response} : layer.Answers r w response after →
      Meets last ((layer, fate) :: row) r w fate
  | passes {layer : Layer ω} {own fate : Fate} {row : Row ω} {r seen : Request}
      {w inner : World ω} {f : Response → Response} : layer.Forwards r w seen inner f →
      Meets last row seen inner fate → Meets last ((layer, own) :: row) r w fate
  | arrives {r : Request} {w : World ω} : Meets last [] r w last

/-- A layer shows its handler one request only. -/
theorem Layer.Forwards.seen_unique {layer : Layer ω} {r seen seen' : Request}
    {w inner inner' : World ω} {f f' : Response → Response}
    (h : layer.Forwards r w seen inner f) (h' : layer.Forwards r w seen' inner' f') :
    seen' = seen := by
  classical
  let probe : Handler ω :=
    fun s w => (Response.bare 200, { w with drawn := if s = seen then 0 else 1 })
  have drawn := congrArg (fun p => p.2.drawn) ((h probe).symm.trans (h' probe))
  simpa [probe] using drawn

/-- A request has one fate. -/
theorem Meets.unique {last fate fate' : Fate} {row : Row ω} {r : Request} {w : World ω}
    (h : Meets last row r w fate) (h' : Meets last row r w fate') : fate' = fate := by
  induction h with
  | arrives => cases h' with | arrives => rfl
  | stops answers =>
      cases h' with
      | stops _ => rfl
      | passes forwards _ => exact absurd forwards.runs answers.not_runs
  | passes forwards _ ih =>
      cases h' with
      | stops answers => exact absurd forwards.runs answers.not_runs
      | passes forwards' below =>
          obtain rfl := forwards.seen_unique forwards'
          obtain rfl := forwards.unique forwards'
          exact ih below

theorem Meets.mem {last fate : Fate} {row : Row ω} {r : Request} {w : World ω}
    (h : Meets last row r w fate) : fate = last ∨ fate ∈ row.map Prod.snd := by
  induction h with
  | stops _ => exact .inr List.mem_cons_self
  | passes _ _ ih => exact ih.imp_right (List.mem_cons_of_mem _)
  | arrives => exact .inl rfl

/-- A layer counts what it answers as one fate and what it lets through not at all, failures
of the store apart; and it answers as a limiter does only if it is one. -/
def Keeps (layer : Layer ω) (fate : Fate) : Prop :=
  ∀ r w,
    (∃ seen inner f, layer.Forwards r w seen inner f ∧ seen.target = r.target ∧
        inner.metrics.settled = w.metrics.settled ∧
        ∀ response, (f response).status = response.status) ∨
      ∃ response after, layer.Answers r w response after ∧ fate.Books w.metrics after.metrics ∧
        (response.status = 429 ↔ fate.isLimited = true)

section Row

variable {last fate : Fate} {m n m' : Metrics}

theorem Fate.Books.of_settled (h : fate.Books n m') (same : n.settled = m.settled) :
    fate.Books m m' := by
  cases fate <;> simpa only [Fate.Books, same] using h

/-- **In a row of layers that keep count a request has its fate**, and is counted as that. -/
theorem meets_of_keeps {row : Row ω} (keeps : ∀ l ∈ row, Keeps l.1 l.2) {next : Handler ω}
    {target : Target}
    (handled : ∀ seen w, seen.target = target →
      last.Books (World.metrics w) (next seen w).2.metrics ∧
        ((next seen w).1.status = 429 ↔ last.isLimited = true))
    {r : Request} (here : r.target = target) (w : World ω) :
    ∃ fate, Meets last row r w fate ∧ fate.Books w.metrics (row.layer next r w).2.metrics ∧
      ((row.layer next r w).1.status = 429 ↔ fate.isLimited = true) := by
  induction row generalizing r w with
  | nil => exact ⟨last, .arrives, handled r w here⟩
  | cons l row ih =>
      have unfolded : Row.layer (l :: row) next = l.1 (Row.layer row next) := rfl
      rw [unfolded]
      rcases keeps l List.mem_cons_self r w with
        ⟨seen, inner, f, forwards, there, quiet, status⟩ | ⟨response, after, answers, books, told⟩
      · obtain ⟨fate, meets, books, told⟩ :=
          ih (fun l mem => keeps l (List.mem_cons_of_mem _ mem)) (there.trans here) inner
        rw [forwards, status]
        exact ⟨fate, .passes forwards meets, books.of_settled quiet, told⟩
      · rw [answers]
        exact ⟨l.2, .stops answers, books, told⟩

end Row

/-! ### The layers of an app -/

theorem Limit.metrics_of_check {store : Store ω} {deadline window : Span} {key : String} {cap : Nat}
    {w inner : World ω} {verdict : Except StoreFault Window}
    (h : check store deadline key cap window w = (verdict, inner)) : inner.metrics = w.metrics := by
  obtain ⟨o, left⟩ := check_leaves store deadline key cap window w
  rw [h] at left
  have kept := congrArg World.metrics left
  exact kept

theorem Limit.Limiter.keeps {l : Limiter ω} (metered : l.metered = true)
    (plain : l.onExceed = none) : Keeps l.guard (.limited l.name) := by
  intro r w
  cases l.settles r w with
  | idle _ forwards => exact .inl ⟨r, w, id, forwards, rfl, rfl, fun _ => rfl⟩
  | fault _ _ checked forwards =>
      refine .inl ⟨r, _, id, forwards, rfl, ?_, fun _ => rfl⟩
      rw [← metrics_of_check checked, metered]
      rfl
  | @within _ _ _ inner _ _ checked _ forwards =>
      refine .inl ⟨r, inner, _, forwards, rfl, ?_, fun _ => rfl⟩
      rw [metrics_of_check checked]
  | @past _ _ win _ _ _ checked _ answers =>
      refine .inr ⟨_, _, answers, ?_, iff_of_true (status_reject r plain win) rfl⟩
      rw [← metrics_of_check checked, metered]
      rfl

theorem Limit.keeps_extractWorkspace : Keeps (extractWorkspace (ω := ω)) .malformed := by
  intro r w
  rcases named : workspaceOf r with fault | found
  · have answers : extractWorkspace.Answers r w fault.response w := by
      intro next
      simp [extractWorkspace, named]
    refine .inr ⟨_, _, answers, rfl, iff_of_false ?_ (by decide)⟩
    exact (Response.unlimited_fault fault).status
  · have forwards : extractWorkspace.Forwards r w ((found.map r.withWorkspace).getD r) w id := by
      refine Layer.forwards_id fun next => ?_
      cases found <;> simp [extractWorkspace, named]
    exact .inl ⟨_, w, id, forwards, by cases found <;> rfl, rfl, fun _ => rfl⟩

theorem Auth.Gate.keeps_require {g : Gate ω} (metered : g.metered = true) :
    Keeps g.require .signedOut := by
  intro r w
  obtain ⟨o, ⟨user, -, forwards⟩ | ⟨-, answers⟩⟩ := g.require_cases r w
  · exact .inl ⟨_, _, id, forwards, rfl, rfl, fun _ => rfl⟩
  · refine .inr ⟨_, _, answers, ?_, iff_of_false ?_ (by decide)⟩
    · rw [Act.record_apply, metered]
      rfl
    · exact (App.unlimited_turnAway g r _).status

/-- The other layer of the gate answers nobody. -/
theorem Auth.Gate.keeps_optional (g : Gate ω) (fate : Fate) : Keeps g.optional fate := by
  intro r w
  obtain ⟨o, ⟨user, forwards⟩ | forwards⟩ := g.optional_cases r w
  · exact .inl ⟨_, _, _, forwards, rfl, rfl, Jar.status_apply _⟩
  · exact .inl ⟨_, _, _, forwards, rfl, rfl, Jar.status_apply _⟩

namespace App

/-- The layers of a route, each with the fate of what it answers. -/
def rowFor (app : App ω) (route : Route) : Row ω :=
  if route.isProtected then
    [(app.meteredGate.require, .signedOut), (app.userLimiter.guard, .limited "user"),
      (extractWorkspace, .malformed), (app.workspaceLimiter.guard, .limited "workspace")]
  else if route = .login then [(app.meteredGate.optional, .signedOut)]
  else []

/-- The layers around the handler of a request. -/
def rowOf (app : App ω) (r : Request) : Row ω :=
  (app.clientLimiter.guard, .limited "ip") :: (app.endpointLimiter.guard, .limited "endpoint") ::
    match Route.ofPath? r.path with
    | none => []
    | some route => app.rowFor route

/-- The request is for the handler of callbacks, and its query can be read. -/
def Returns (r : Request) : Prop :=
  Route.ofPath? r.path = some .callback ∧ Route.callback.methods.contains r.method = true ∧
    (CallbackParams.read (r.target.query.getD "")).isOk = true

instance (r : Request) : Decidable (Returns r) :=
  inferInstanceAs (Decidable (_ ∧ _ ∧ _))

/-- The fate of a request that no layer answers. -/
def lastOf (r : Request) : Fate :=
  if Returns r then .calledBack else .answered

/-- What a request comes to in a world. -/
def Comes (app : App ω) (r : Request) (w : World ω) (fate : Fate) : Prop :=
  Meets (lastOf r) (app.rowOf r) r w fate

variable (app : App ω)

theorem layer_rowOf (r : Request) : (app.rowOf r).layer = app.around r := by
  funext next
  unfold Row.layer rowOf around inner
  cases Route.ofPath? r.path with
  | none => rfl
  | some route =>
      simp only [List.foldr_cons, rowFor, layersOf]
      split
      · rfl
      · split <;> rfl

theorem keeps_rowOf (r : Request) : ∀ l ∈ app.rowOf r, Keeps l.1 l.2 := by
  have workspace : Keeps app.workspaceLimiter.guard (.limited "workspace") := by
    rw [WorkspaceLimiter.guard_eq]
    exact Limiter.keeps rfl rfl
  have client : Keeps app.clientLimiter.guard (.limited "ip") := Limiter.keeps rfl rfl
  have endpoint : Keeps app.endpointLimiter.guard (.limited "endpoint") := Limiter.keeps rfl rfl
  have user : Keeps app.userLimiter.guard (.limited "user") := Limiter.keeps rfl rfl
  have inside : ∀ route, ∀ l ∈ app.rowFor route, Keeps l.1 l.2 := by
    intro route
    unfold rowFor
    split
    · simp only [List.forall_mem_cons]
      exact ⟨Gate.keeps_require rfl, user, keeps_extractWorkspace, workspace, nofun⟩
    · split
      · exact List.forall_mem_singleton.mpr (Gate.keeps_optional _ _)
      · exact nofun
  rw [rowOf, List.forall_mem_cons, List.forall_mem_cons]
  refine ⟨client, endpoint, ?_⟩
  cases Route.ofPath? r.path with
  | none => exact nofun
  | some route => exact inside route

/-! ### Handlers -/

theorem metrics_handlerOf {route : Route} (other : route ≠ .callback) (r : Request)
    (w : World ω) : (app.handlerOf route r w).2.metrics = w.metrics := by
  cases route with
  | callback => exact absurd rfl other
  | health =>
      show (app.isHealthy w).2.metrics = w.metrics
      unfold isHealthy
      cases app.ping <;> rfl
  | login =>
      show (app.login r w).2.metrics = w.metrics
      unfold login
      split <;> rfl
  | metrics | logout | me | workspaces | workspace => rfl

/-- Whatever fails first, a callback counts one outcome. -/
theorem metrics_finishLogin (p : CallbackParams) (r : Request) (w : World ω) :
    ∃ outcome, (app.finishLogin p r w).2.metrics = w.metrics.recordCallback outcome := by
  have granted : ∃ o, (app.grantFor p.code r w).2 = { w with outside := o } := by
    unfold grantFor
    cases app.provider with
    | none => exact ⟨w.outside, rfl⟩
    | some provider => exact ⟨_, rfl⟩
  unfold finishLogin
  dsimp only
  split
  · exact ⟨_, rfl⟩
  · split
    · exact ⟨_, rfl⟩
    · split
      · exact ⟨_, rfl⟩
      · obtain ⟨o, left⟩ := granted
        rw [Act.bind_apply, left]
        cases (app.grantFor p.code r w).1 <;> exact ⟨_, rfl⟩

/-- What stands behind all layers counts nothing but callbacks, and each of them once. -/
theorem routeFor_books (r : Request) {seen : Request} (same : seen.target = r.target)
    (w : World ω) :
    (lastOf r).Books w.metrics (app.routeFor r seen w).2.metrics := by
  unfold lastOf
  split
  · rename_i returns
    obtain ⟨route, allowed, readable⟩ := returns
    have handler : app.routeFor r = app.callback := by
      unfold routeFor
      rw [route]
      exact if_pos allowed
    rw [handler, callback, same]
    cases read : CallbackParams.read (r.target.query.getD "") with
    | error name =>
        rw [read] at readable
        cases readable
    | ok p =>
        obtain ⟨outcome, counted⟩ := app.metrics_finishLogin p seen w
        exact ⟨outcome, by rw [counted]; rfl⟩
  · rename_i other
    show (app.routeFor r seen w).2.metrics.settled = w.metrics.settled
    unfold routeFor
    cases named : Route.ofPath? r.path with
    | none => rfl
    | some route =>
        by_cases allowed : route.methods.contains r.method = true
        · simp only [allowed, if_true]
          by_cases callback_ : route = .callback
          · subst callback_
            show (app.callback seen w).2.metrics.settled = _
            rw [callback, same]
            cases read : CallbackParams.read (r.target.query.getD "") with
            | error name => rfl
            | ok p => exact absurd ⟨named, allowed, by rw [read]; rfl⟩ other
          · rw [app.metrics_handlerOf callback_]
        · simp only [allowed]
          rfl

/-! ### One request -/

/-- **A request is counted as what it comes to**, and its response shows a limiter if one
refuses it. -/
theorem respond_books (r : Request) (w : World ω) :
    ∃ fate, app.Comes r w fate ∧ fate.Books w.metrics (app.respond r w).2.metrics ∧
      ((app.respond r w).1.status = 429 ↔ fate.isLimited = true) := by
  have handled : ∀ seen w, seen.target = r.target →
      (lastOf r).Books (World.metrics w) (app.routeFor r seen w).2.metrics ∧
        ((app.routeFor r seen w).1.status = 429 ↔ (lastOf r).isLimited = true) := by
    intro seen w same
    refine ⟨app.routeFor_books r same w, iff_of_false (app.unlimited_routeFor r seen w).status ?_⟩
    unfold lastOf
    split <;> exact nofun
  obtain ⟨fate, meets, books, told⟩ := meets_of_keeps (app.keeps_rowOf r) handled rfl w
  rw [app.layer_rowOf, ← app.limited_eq] at books told
  exact ⟨fate, meets, books, by rw [status_respond, told]⟩

/-- The limiters of an app are those of clients, endpoints, users and workspaces. -/
theorem limiter_of_comes {r : Request} {w : World ω} {limiter : String}
    (h : app.Comes r w (.limited limiter)) : limiter ∈ ["ip", "endpoint", "user", "workspace"] := by
  have inside : ∀ route, Fate.limited limiter ∈ (app.rowFor route).map Prod.snd →
      limiter ∈ ["user", "workspace"] := by
    intro route
    unfold rowFor
    split
    · simp
    · split <;> simp
  rcases h.mem with last | mem
  · unfold lastOf at last
    split at last <;> cases last
  · rw [rowOf, List.map_cons, List.map_cons] at mem
    cases named : Route.ofPath? r.path with
    | none =>
        simp only [named, List.map_nil, List.mem_cons, Fate.limited.injEq] at mem ⊢
        tauto
    | some route =>
        have behind := inside route
        simp only [named, List.mem_cons, Fate.limited.injEq] at mem behind ⊢
        tauto

/-- A request for the login is never turned away by the gate of protected routes. -/
theorem not_comes_of_login {r : Request} (login : r.path = "/login") (w : World ω) :
    ¬ app.Comes r w .signedOut := by
  have route := ofPath?_of_login login
  have last : lastOf r = .answered := by
    refine if_neg fun returns => ?_
    have callback_ := route.symm.trans returns.1
    cases callback_
  have row : app.rowOf r = [(app.clientLimiter.guard, .limited "ip"),
      (app.endpointLimiter.guard, .limited "endpoint"),
        (app.meteredGate.optional, .signedOut)] := by
    rw [rowOf, route]
    rfl
  intro comes
  rw [Comes, last, row] at comes
  cases comes with
  | passes _ comes =>
      cases comes with
      | passes _ comes =>
          cases comes with
          | stops answers =>
              obtain ⟨o, ⟨user, forwards⟩ | forwards⟩ := app.meteredGate.optional_cases _ _
              · exact answers.not_runs forwards.runs
              · exact answers.not_runs forwards.runs
          | passes _ comes => cases comes

/-! ### Runs -/

/-- The requests of a run, each with the world that it meets. -/
def encounters (app : App ω) : List (Span × Request) → World ω → List (Request × World ω)
  | [], _ => []
  | (elapsed, r) :: rest, w =>
      let here := (Act.advance elapsed w).2
      (r, here) :: app.encounters rest (app.respond r here).2

end App

/-- What metrics have grown by when requests came to these fates. -/
structure Metrics.Grow (m m' : Metrics) (fates : List Fate) : Prop where
  rejections : ∀ limiter,
    m'.rejections.get limiter = m.rejections.get limiter + fates.count (.limited limiter)
  rejected : m'.rejections.total = m.rejections.total + fates.countP Fate.isLimited
  authFailures : m'.authFailures = m.authFailures + fates.count .signedOut
  callbacks : m'.callbacks.total = m.callbacks.total + fates.count .calledBack

/-- Every label is counted in one place. -/
structure Metrics.Orderly (m : Metrics) : Prop where
  rejections : (Assoc.keys m.rejections).Nodup
  callbacks : (Assoc.keys m.callbacks).Nodup

section Grow

variable {m m' m'' : Metrics} {fate : Fate} {fates more : List Fate}

theorem Metrics.Grow.trans (h : m.Grow m' fates) (h' : m'.Grow m'' more) :
    m.Grow m'' (fates ++ more) where
  rejections limiter := by
    rw [h'.rejections, h.rejections, List.count_append, Nat.add_assoc]
  rejected := by rw [h'.rejected, h.rejected, List.countP_append, Nat.add_assoc]
  authFailures := by rw [h'.authFailures, h.authFailures, List.count_append, Nat.add_assoc]
  callbacks := by rw [h'.callbacks, h.callbacks, List.count_append, Nat.add_assoc]

/-- What is counted for a fate is that fate, once. -/
theorem Fate.Books.grow (h : fate.Books m m') (orderly : m.Orderly) :
    m'.Orderly ∧ m.Grow m' [fate] := by
  have parts : ∀ n : Metrics, m'.settled = n →
      m'.rejections = n.rejections ∧ m'.authFailures = n.authFailures ∧
        m'.callbacks = n.callbacks := by
    rintro n rfl
    exact ⟨rfl, rfl, rfl⟩
  cases fate with
  | limited limiter =>
      obtain ⟨rejections, authFailures, callbacks⟩ := parts _ h
      have bumped : m'.rejections = m.rejections.bump limiter := rejections
      refine ⟨⟨bumped ▸ Tally.nodup_keys_bump orderly.rejections limiter,
        callbacks ▸ orderly.callbacks⟩, fun name => ?_, ?_, authFailures, by rw [callbacks]; rfl⟩
      · rw [bumped, Tally.get_bump]
        by_cases same : name = limiter
        · simp [same]
        · simp [same, Ne.symm same]
      · rw [bumped, Tally.total_bump orderly.rejections]
        rfl
  | calledBack =>
      obtain ⟨outcome, h⟩ := h
      obtain ⟨rejections, authFailures, callbacks⟩ := parts _ h
      have bumped : m'.callbacks = m.callbacks.bump outcome := callbacks
      refine ⟨⟨rejections ▸ orderly.rejections,
        bumped ▸ Tally.nodup_keys_bump orderly.callbacks outcome⟩, fun name => ?_, ?_,
        authFailures, ?_⟩
      · rw [rejections]
        rfl
      · rw [rejections]
        rfl
      · rw [bumped, Tally.total_bump orderly.callbacks]
        rfl
  | signedOut | malformed | answered =>
      obtain ⟨rejections, authFailures, callbacks⟩ := parts _ h
      refine ⟨⟨rejections ▸ orderly.rejections, callbacks ▸ orderly.callbacks⟩, fun name => ?_,
        ?_, authFailures, by rw [callbacks]; rfl⟩
      · rw [rejections]
        rfl
      · rw [rejections]
        rfl

end Grow

namespace App

variable (app : App ω)

/-- **The fates of a run are what its metrics have grown by.** -/
theorem serve_accounts (arrivals : List (Span × Request)) (w : World ω)
    (orderly : w.metrics.Orderly) :
    ∃ fates,
      List.Forall₂ (fun v fate => app.Comes v.1 v.2 fate) (app.encounters arrivals w) fates ∧
        List.Forall₂ (fun a fate => a.2.status = 429 ↔ fate.isLimited = true)
          (app.serve arrivals w).1 fates ∧
        w.metrics.Grow (app.serve arrivals w).2.metrics fates := by
  induction arrivals generalizing w with
  | nil => exact ⟨[], .nil, .nil, fun _ => rfl, rfl, rfl, rfl⟩
  | cons arrival rest ih =>
      obtain ⟨elapsed, r⟩ := arrival
      obtain ⟨fate, comes, books, told⟩ := app.respond_books r (Act.advance elapsed w).2
      obtain ⟨orderly', grow⟩ := books.grow (m := w.metrics) orderly
      obtain ⟨fates, meet, show_, more⟩ := ih _ orderly'
      exact ⟨fate :: fates, .cons comes meet, .cons told show_, grow.trans more⟩

/-- As many requests are refused by limiters as responses show it. -/
theorem countP_eq_of_forall₂ {answers : List (Request × Response)} {fates : List Fate}
    (told : List.Forall₂ (fun a fate => a.2.status = 429 ↔ fate.isLimited = true) answers fates) :
    answers.countP (·.2.status = 429) = fates.countP Fate.isLimited := by
  induction told with
  | nil => rfl
  | cons same _ ih => simp only [List.countP_cons, ih, decide_eq_true_iff, same]

/-! ### Failures of the store -/

/-- The store did not say its number. -/
def isUnanswered (c : String × Reply String Nat) : Bool :=
  match c.2 with
  | .ready _ => false
  | _ => true

/-- Beside a world, its watched form in which each failure that was counted since `start` is
noted. -/
def Faults (start : Nat) (w' : World (Log × ω)) (w : World ω) : Prop :=
  ∃ log : Log, w' = w.logging log ∧ w.metrics.storeFaults = start + log.countP isUnanswered

variable {start : Nat}

theorem likeness_faults : Likeness (Faults (ω := ω) start) where
  clock := by
    rintro w' w ⟨log, rfl, -⟩
    rfl
  draw := by
    rintro w' w ⟨log, rfl, counted⟩
    exact ⟨rfl, log, rfl, counted⟩
  authFailure := by
    rintro metered w' w ⟨log, rfl, counted⟩
    cases metered <;> exact ⟨rfl, log, rfl, counted⟩
  callback := by
    rintro label w' w ⟨log, rfl, counted⟩
    exact ⟨rfl, log, rfl, counted⟩

theorem serves_faults {α : Type} (service : ω → α × ω) :
    Act.Alike (Faults start) Eq (Act.ask (beside service)) (Act.ask service) := by
  rintro w' w ⟨log, rfl, counted⟩
  exact ⟨rfl, log, rfl, counted⟩

theorem alike_faults : Alike (Faults start) app.watched app := by
  have likeness : Likeness (Faults (ω := ω) start) := likeness_faults
  have services := app.alike_carried likeness serves_faults (app.store.map Store.watched) app.store
  rwa [carried_self] at services

/-- A check that fails is one failure more. -/
theorem faults_of_error {store : Store ω} {deadline window : Span} {key : String} {cap : Nat}
    {w inner : World ω} {fault : StoreFault} {log : Log}
    (checked : check store deadline key cap window w = (.error fault, inner))
    (counted : w.metrics.storeFaults = start + log.countP isUnanswered) :
    Faults start
      ((Act.record true Metrics.recordStoreFault inner).2.logging
        (log ++ [(key, (store.increment w.clock key window w.outside).1)]))
      (Act.record true Metrics.recordStoreFault inner).2 := by
  refine ⟨_, rfl, ?_⟩
  rcases check_cases store deadline key cap window w with ⟨win, -, -, ok⟩ | ⟨none_, -⟩
  · rw [checked] at ok
    cases ok
  · have one : isUnanswered (key, (store.increment w.clock key window w.outside).1) = true := by
      cases reply : (store.increment w.clock key window w.outside).1 with
      | ready n => exact absurd reply (none_ n)
      | failed _ | stalled => rfl
    rw [List.countP_append, List.countP_singleton, one, Act.record_apply, if_pos rfl]
    show inner.metrics.storeFaults + 1 = _
    rw [metrics_of_check checked, counted]
    rfl

/-- A check that has a window is no failure. -/
theorem faults_of_ok {store : Store ω} {deadline window : Span} {key : String} {cap : Nat}
    {w inner : World ω} {win : Window} {log : Log}
    (checked : check store deadline key cap window w = (.ok win, inner))
    (counted : w.metrics.storeFaults = start + log.countP isUnanswered) :
    inner.metrics.storeFaults = start +
      (log ++ [(key, (store.increment w.clock key window w.outside).1)]).countP isUnanswered := by
  rcases check_cases store deadline key cap window w with ⟨win', ready, -⟩ | ⟨-, fault, failed⟩
  · rw [List.countP_append, List.countP_singleton, metrics_of_check checked, counted, ready]
    rfl
  · rw [checked] at failed
    cases failed

theorem alike_guard_faults {l : Limiter ω} (metered : l.metered = true) (path : String) :
    Layer.Alike (Faults start) path Eq l.watched.guard l.guard := by
  rintro next' next like r here w' w ⟨log, rfl, counted⟩
  -- The watched limiter has the same key and cap, and a store that notes what it replies.
  have beside {store : Store ω} {key : String} (has : l.store = some store)
      (keyed : l.keyFor r = some key) : l.watched.guard next' r (w.logging log) =
        l.watched.gate store.watched key next' r (w.logging log) := by
    have has' : l.watched.store = some store.watched := by
      rw [Limiter.watched, has, Option.map_some]
    exact l.watched.guard_of_counted r _ has' keyed next'
  have noted {store : Store ω} {key : String} {verdict : Except StoreFault Window}
      {inner : World ω} (checked : check store l.deadline key (l.capFor r) l.window w =
        (verdict, inner)) :=
      checked ▸ check_watched store l.deadline key (l.capFor r) l.window w log
  cases l.settles r w with
  | idle none_ forwards =>
      have idle : l.watched.store = none ∨ l.watched.keyFor r = none :=
        none_.imp (fun has => by rw [Limiter.watched, has, Option.map_none]) id
      rw [forwards, l.watched.guard_of_uncounted r _ idle]
      exact like r here _ _ ⟨log, rfl, counted⟩
  | fault has keyed checked forwards =>
      rw [forwards, beside has keyed, l.watched.gate_of_error r _ (noted checked),
        show l.watched.metered = true from metered, metered, Act.record_logging]
      exact like r here _ _ (faults_of_error checked counted)
  | within has keyed checked within forwards =>
      rw [forwards, beside has keyed, l.watched.gate_of_within r _ (noted checked) within]
      obtain ⟨same, after⟩ := like r here _ _ ⟨_, rfl, faults_of_ok checked counted⟩
      exact ⟨same.mapHeaders _, after⟩
  | past has keyed checked past answers =>
      have counted' := faults_of_ok checked counted
      rw [answers, beside has keyed, l.watched.gate_of_past r _ (noted checked) past]
      refine ⟨.refl (fun _ => rfl) _, _, Act.record_logging _ _ _ _, ?_⟩
      rw [Act.record_apply]
      split <;> exact counted'

theorem alikeOn_faults (path : String) : AlikeOn (Faults start) path Eq app.watched app where
  same _ := rfl
  client := alike_guard_faults (l := app.clientLimiter) rfl path
  endpoint := alike_guard_faults (l := app.endpointLimiter) rfl path
  user := alike_guard_faults (l := app.userLimiter) rfl path
  workspace := by
    rw [WorkspaceLimiter.guard_eq, WorkspaceLimiter.guard_eq]
    exact alike_guard_faults (l := app.workspaceLimiter.asLimiter) rfl path
  health _ r _ := (app.alike_faults.health app.storeKind_watched r).same fun _ => rfl
  metrics _ r _ := by
    refine .get ?_
    rintro w' w ⟨log, rfl, -⟩
    exact .pure (.refl (fun _ => rfl) _)

/-- **The counted failures of a run are the replies without a number.** Watched, the app
answers the same. -/
theorem serve_noted (arrivals : List (Span × Request)) (w : World ω) :
    ∃ counts : Log,
      app.watched.serve arrivals (w.logging []) =
          ((app.serve arrivals w).1, (app.serve arrivals w).2.logging counts) ∧
        (app.serve arrivals w).2.metrics.storeFaults =
          w.metrics.storeFaults + counts.countP isUnanswered := by
  have advances : ∀ s, Act.Alike (Faults w.metrics.storeFaults) Eq (Act.advance s)
      (Act.advance (ω := ω) s) := by
    rintro s v' v ⟨log, rfl, counted⟩
    exact ⟨rfl, log, rfl, counted⟩
  obtain ⟨same, counts, after, counted⟩ := alike_serve advances
    (fun path => app.alike_faults.respond (app.alikeOn_faults path)) arrivals
    (w.logging []) w ⟨[], rfl, rfl⟩
  exact ⟨counts, Prod.ext (eq_of_forall₂ same) after, counted⟩

/-- **The metrics account for the requests of a run.** Every request has one fate. A response is
a 429 exactly if a limiter refuses the request: that of clients, of endpoints, of users or of
workspaces; the rejections are as many as these responses, each of them under the name of the
limiter that refused. The failures of the store are the checks that were given no number,
whatever was said of the rest of the window. The failures of authentication are the requests
that the gate of protected routes turned away, so none for the login, and the callbacks are
those that the handler of callbacks answered. -/
theorem metrics_account_for_requests (arrivals : List (Span × Request)) (w : World ω)
    (start : w.metrics = {}) :
    let answers := (app.serve arrivals w).1
    let after := (app.serve arrivals w).2
    ∃ (fates : List Fate) (counts : Log),
      (List.Forall₂ (fun v fate => app.Comes v.1 v.2 fate) (app.encounters arrivals w) fates ∧
        ∀ fates', List.Forall₂ (fun v fate => app.Comes v.1 v.2 fate) (app.encounters arrivals w)
          fates' → fates' = fates) ∧
      List.Forall₂ (fun a fate => a.2.status = 429 ↔ ∃ limiter, fate = .limited limiter)
        answers fates ∧
      (∀ r w limiter, app.Comes r w (.limited limiter) →
        limiter ∈ ["ip", "endpoint", "user", "workspace"]) ∧
      after.metrics.rejections.total = answers.countP (·.2.status = 429) ∧
      (∀ limiter, after.metrics.rejections.get limiter = fates.count (.limited limiter)) ∧
      app.watched.serve arrivals (w.logging []) = (answers, after.logging counts) ∧
      after.metrics.storeFaults = counts.countP isUnanswered ∧
      after.metrics.authFailures = fates.count .signedOut ∧
      (∀ r w, r.path = "/login" → ¬ app.Comes r w .signedOut) ∧
      after.metrics.callbacks.total = fates.count .calledBack := by
  intro answers after
  have orderly : w.metrics.Orderly := by
    rw [start]
    exact ⟨List.nodup_nil, List.nodup_nil⟩
  obtain ⟨fates, comes, told, grow⟩ := app.serve_accounts arrivals w orderly
  obtain ⟨counts, noted, faults⟩ := app.serve_noted arrivals w
  have rejections := grow.rejections
  have rejected := grow.rejected
  have authFailures := grow.authFailures
  have callbacks := grow.callbacks
  simp only [start] at rejections rejected authFailures callbacks faults
  refine ⟨fates, counts, ⟨comes, fun fates' comes' => ?_⟩, told.imp fun a fate same => ?_,
    fun r w limiter => app.limiter_of_comes, ?_, fun limiter => ?_, noted, ?_, ?_,
    fun r w login => app.not_comes_of_login login w, ?_⟩
  · exact List.right_unique_forall₂' (fun _ _ _ h h' => h'.unique h) comes' comes
  · rw [same]
    cases fate <;> simp [Fate.isLimited]
  · rw [rejected, countP_eq_of_forall₂ told]
    exact Nat.zero_add _
  · exact (rejections limiter).trans (Nat.zero_add _)
  · exact faults.trans (Nat.zero_add _)
  · exact authFailures.trans (Nat.zero_add _)
  · exact callbacks.trans (Nat.zero_add _)

/-- A page of a workspace, a second later a page without a session, and then a callback
that nobody asked for. -/
def mixedVisits : List (Span × Request) :=
  [(0, crowdedVisit),
    (Span.seconds 1, { crowdedVisit with target := ⟨none, none, "/api/me", none⟩, headers := [] }),
    (0, { crowdedVisit with target := ⟨none, none, "/auth/callback", some "state=x"⟩ })]

/-- The workspace is full, and the store fails for clients and for the endpoint of the page. -/
theorem mixed_visits_are_accounted :
    (World.fresh ()).metrics = {} ∧
      (crowdedApp.serve mixedVisits (.fresh ())).2.metrics.rejections.total = 1 ∧
      (crowdedApp.serve mixedVisits (.fresh ())).2.metrics.storeFaults = 4 := by
  obtain ⟨fates, counts, -, -, -, rejected, -, noted, faults, -⟩ :=
    crowdedApp.metrics_account_for_requests mixedVisits (.fresh ()) rfl
  have log := congrArg (fun p => p.2.outside.1.countP isUnanswered) noted
  refine ⟨rfl, rejected.trans (by decide +kernel), (faults.trans log.symm).trans ?_⟩
  decide +kernel

end App

end Gatehouse
