import Gatehouse.Proofs.App.Alike

/-!
Watching the counts of an app.

A watched store notes every count that it is asked for, in order and with its
reply, and does nothing else that it did not do before. The log stands beside the
state of the services, and none of them can look at it (`App.watched`). What does
not ask the store to count is silent: it does the same as without the log and
leaves the log as it is (`Act.Silent`). All of an app is silent but its limiters.

* `Auth.Gate.silent_identify` has it for the gate, and `App.silent_handlerOf` for
  every handler.
* `Limit.check_watched` says what the check of a limiter notes.
* `App.alike_watched` and `App.alikeOn_watched` compare a whole app with its watched
  form: what services and checks keep to, log included, the app keeps to.
-/

namespace Gatehouse

/-- The counts that a store was asked for, each with its reply. -/
abbrev Log := List (String × Reply String Nat)

variable {ω α β : Type}

/-- A service that stands beside a log. -/
def beside (service : ω → α × ω) : Log × ω → α × (Log × ω) :=
  Store.onPart Prod.snd (fun o w => (w.1, o)) service

/-- A store that notes what it counts. -/
def Store.watched (s : Store ω) : Store (Log × ω) where
  increment clock key window w :=
    let (reply, o) := s.increment clock key window w.2
    (reply, w.1 ++ [(key, reply)], o)
  count clock key := beside (s.count clock key)
  ttl clock key := beside (s.ttl clock key)

def Auth.Gate.watched (g : Gate ω) : Gate (Log × ω) where
  validator := g.validator.map fun validate clock token => beside (validate clock token)
  resolver := g.resolver.map fun resolve name username email =>
    beside (resolve name username email)
  allowMock := g.allowMock
  trustProxy := g.trustProxy
  loginPath := g.loginPath
  metered := g.metered

def OAuth.Provider.watched (p : Provider ω) : Provider (Log × ω) where
  authorizationUrl := p.authorizationUrl
  exchange code address := beside (p.exchange code address)

/-- The app with a store that notes what it counts. -/
def App.watched (app : App ω) : App (Log × ω) where
  store := app.store.map Store.watched
  limit := app.limit
  burst := app.burst
  window := app.window
  skipPaths := app.skipPaths
  deadline := app.deadline
  endpoints := app.endpoints
  workspaceLimit := app.workspaceLimit
  workspaceLimits := app.workspaceLimits
  gate := app.gate.watched
  provider := app.provider.map OAuth.Provider.watched
  landing := app.landing
  ping := app.ping.map beside

def Limit.Limiter.watched (l : Limiter ω) : Limiter (Log × ω) where
  limit := l.limit
  window := l.window
  burst := l.burst
  skipPaths := l.skipPaths
  key := l.key
  onExceed := l.onExceed
  limitOf := l.limitOf
  store := l.store.map Store.watched
  message := l.message
  deadline := l.deadline
  name := l.name
  metered := l.metered

/-- A world with a log beside the state of its services. -/
def World.logging (w : World ω) (log : Log) : World (Log × ω) where
  clock := w.clock
  metrics := w.metrics
  seeds := w.seeds
  drawn := w.drawn
  outside := (log, w.outside)

theorem World.logging_inj {w v : World ω} {log log' : Log} (h : w.logging log = v.logging log') :
    w = v ∧ log = log' := by
  cases w
  cases v
  simpa [logging, and_assoc, and_comm, and_left_comm] using h

/-! ### Silence -/

/-- The worlds of an app and of its watched form, as long as the log, the clock and the
state of the services satisfy `I`. -/
def Logs (I : Log → Clock → ω → Prop) (w' : World (Log × ω)) (w : World ω) : Prop :=
  ∃ log, I log w.clock w.outside ∧ w' = w.logging log

/-- The log is a given one. -/
def Fixed (log : Log) : World (Log × ω) → World ω → Prop :=
  Logs fun l _ _ => l = log

theorem likeness_logs (I : Log → Clock → ω → Prop) : Likeness (Logs I) where
  clock := by
    rintro w' w ⟨log, -, rfl⟩
    rfl
  draw := by
    rintro w' w ⟨log, holds, rfl⟩
    exact ⟨rfl, log, holds, rfl⟩
  authFailure := by
    rintro metered w' w ⟨log, holds, rfl⟩
    cases metered <;> exact ⟨rfl, log, holds, rfl⟩
  callback := by
    rintro label w' w ⟨log, holds, rfl⟩
    exact ⟨rfl, log, holds, rfl⟩

/-- A service that keeps to `I` cannot look at the log. -/
theorem serves_logs {I : Log → Clock → ω → Prop} {service : ω → α × ω}
    (keeps : ∀ log c o, I log c o → I log c (service o).2) :
    Act.Alike (Logs I) Eq (Act.ask (beside service)) (Act.ask service) := by
  rintro w' w ⟨log, holds, rfl⟩
  exact ⟨rfl, log, keeps log _ _ holds, rfl⟩

namespace Act

/-- A computation does the same beside a log, which it leaves as it is. -/
def Silent (x' : Act (Log × ω) α) (x : Act ω α) : Prop :=
  ∀ w log, x' (w.logging log) = ((x w).1, (x w).2.logging log)

theorem Silent.pure (a : α) : Silent (pure a : Act (Log × ω) α) (pure a : Act ω α) :=
  fun _ _ => rfl

/-- What is alike for every log is silent. -/
theorem silent_of_alike {x' : Act (Log × ω) α} {x : Act ω α}
    (h : ∀ log, Alike (Fixed log) Eq x' x) : Silent x' x := by
  intro w log
  obtain ⟨result, l, same, after⟩ := h log (w.logging log) w ⟨log, rfl, rfl⟩
  exact Prod.ext result (after.trans (by rw [same]))

theorem record_logging (metered : Bool) (f : Metrics → Metrics) (w : World ω) (log : Log) :
    (record metered f (w.logging log)).2 = (record metered f w).2.logging log := by
  cases metered <;> rfl

theorem alike_record_logs (I : Log → Clock → ω → Prop) (metered : Bool) (f : Metrics → Metrics) :
    Alike (Logs I) Eq (record metered f) (record metered f) := by
  rintro w' w ⟨log, holds, rfl⟩
  refine ⟨rfl, log, ?_, record_logging metered f w log⟩
  cases metered <;> exact holds

end Act

/-! ### Checks -/

namespace Limit

/-- A check notes one count, whatever its reply, and is silent otherwise. -/
theorem check_watched (store : Store ω) (deadline : Span) (key : String) (cap : Nat)
    (window : Span) (w : World ω) (log : Log) :
    check store.watched deadline key cap window (w.logging log) =
      ((check store deadline key cap window w).1,
        (check store deadline key cap window w).2.logging
          (log ++ [(key, (store.increment w.clock key window w.outside).1)])) := by
  rcases counted : store.increment w.clock key window w.outside with ⟨reply, o⟩
  cases settled : Store.settle deadline reply with
  | error fault => simp [check, World.logging, Store.watched, counted, settled]
  | ok count =>
      rcases asked : store.ttl w.clock key o with ⟨left, o'⟩
      cases rest : Store.settle deadline left <;>
        simp [check, World.logging, Store.watched, beside, Store.onPart, counted, settled, asked,
          rest]

/-- A limiter does the same when it is watched, as long as each of its checks keeps to
`I`. -/
theorem Limiter.alike_watched {I : Log → Clock → ω → Prop} {l : Limiter ω}
    (counts : ∀ store, l.store = some store → ∀ key cap (w : World ω) log,
      I log w.clock w.outside →
        I (log ++ [(key, (store.increment w.clock key l.window w.outside).1)])
          (check store l.deadline key cap l.window w).2.clock
          (check store l.deadline key cap l.window w).2.outside)
    (path : String) : Layer.Alike (Logs I) path Eq l.watched.guard l.guard := by
  refine Limiter.alike_guard rfl rfl rfl (fun _ => rfl) ?_ (Act.alike_record_logs I _ _)
    (Act.alike_record_logs I _ _)
  have checks : ∀ store, l.store = some store → ∀ key cap, Act.Alike (Logs I) Eq
      (check store.watched l.deadline key cap l.window)
      (check store l.deadline key cap l.window) := by
    rintro store has key cap w' w ⟨log, holds, rfl⟩
    rw [check_watched]
    exact ⟨rfl, _, counts store has key cap w log holds, rfl⟩
  have store' : l.watched.store = l.store.map Store.watched := rfl
  rw [store']
  revert checks
  cases l.store with
  | none => exact fun _ => .none
  | some store => exact fun checks => .some (checks store rfl)

end Limit

/-! ### Apps -/

theorem Auth.Gate.watched_eq (g : Gate ω) : g.watched = g.carried beside :=
  rfl

theorem App.watched_eq (app : App ω) :
    app.watched = app.carried beside (app.store.map Store.watched) :=
  rfl

/-- A gate that is carried elsewhere and then watched is carried there at once. -/
theorem Auth.Gate.watched_carried {ω₀ : Type} (carry : ∀ {α : Type}, (ω₀ → α × ω₀) → ω → α × ω)
    (g : Gate ω₀) :
    (g.carried carry).watched = g.carried fun service => beside (carry service) := by
  simp [watched_eq, carried, Option.map_map, Function.comp_def]

theorem App.watched_carried {ω₀ : Type} (carry : ∀ {α : Type}, (ω₀ → α × ω₀) → ω → α × ω)
    (store : Option (Store ω)) (app : App ω₀) :
    (app.carried carry store).watched =
      app.carried (fun service => beside (carry service)) (store.map Store.watched) := by
  simp [watched_eq, carried, ← Auth.Gate.watched_eq, Auth.Gate.watched_carried, Option.map_map,
    Function.comp_def]

theorem Auth.Gate.silent_identify (g : Gate ω) (jar : Jar) :
    Act.Silent (g.watched.identify jar) (g.identify jar) := by
  refine Act.silent_of_alike fun log => ?_
  have gates : (g.carried beside).Alike (Fixed log) (g.carried fun service => service) :=
    g.alike_carried fun service => serves_logs fun _ _ _ h => h
  rw [g.carried_self] at gates
  exact gates.identify (likeness_logs _) jar

namespace App

/-- Watched, an app has services that are alike if they keep to `I`. -/
theorem alike_watched {I : Log → Clock → ω → Prop} {ω₀ : Type}
    {carry : ∀ {α : Type}, (ω₀ → α × ω₀) → ω → α × ω}
    (keeps : ∀ {α : Type} (service : ω₀ → α × ω₀) log c o, I log c o → I log c (carry service o).2)
    (app : App ω₀) (store : Option (Store ω)) :
    Alike (Logs I) (app.carried carry store).watched (app.carried carry store) := by
  rw [watched_carried]
  exact app.alike_carried (likeness_logs I) (fun service => serves_logs (keeps service)) _ _

theorem storeKind_watched (app : App ω) : app.watched.storeKind = app.storeKind := by
  unfold storeKind
  cases h : app.store <;> cases h' : app.ping <;> simp [App.watched, h, h']

theorem alike_metrics_logs (I : Log → Clock → ω → Prop) (path : String) :
    Handler.Alike (Logs I) path Eq metrics metrics := by
  intro r _
  refine .get ?_
  rintro w' w ⟨log, -, rfl⟩
  exact .pure (.refl (fun _ => rfl) _)

/-- Watched, an app has limiters that are alike if their checks keep to `I`. -/
theorem alikeOn_watched {I : Log → Clock → ω → Prop} {app : App ω}
    (services : Alike (Logs I) app.watched app)
    (counts : ∀ store, app.store = some store → ∀ key cap (w : World ω) log,
      I log w.clock w.outside →
        I (log ++ [(key, (store.increment w.clock key app.window w.outside).1)])
          (Limit.check store app.deadline key cap app.window w).2.clock
          (Limit.check store app.deadline key cap app.window w).2.outside)
    (path : String) : AlikeOn (Logs I) path Eq app.watched app where
  same _ := rfl
  client := Limit.Limiter.alike_watched (l := app.clientLimiter) counts path
  endpoint := Limit.Limiter.alike_watched (l := app.endpointLimiter) counts path
  user := Limit.Limiter.alike_watched (l := app.userLimiter) counts path
  workspace := by
    rw [Limit.WorkspaceLimiter.guard_eq, Limit.WorkspaceLimiter.guard_eq]
    exact Limit.Limiter.alike_watched (l := app.workspaceLimiter.asLimiter) counts path
  health _ r _ := (services.health app.storeKind_watched r).same fun _ => rfl
  metrics _ := alike_metrics_logs I path

/-- No handler asks the store to count. -/
theorem silent_handlerOf (app : App ω) (route : Route) (r : Http.Request) :
    Act.Silent (app.watched.handlerOf route r) (app.handlerOf route r) := by
  refine Act.silent_of_alike fun log => ?_
  have services : Alike (Fixed log) (app.carried (fun service => service) app.store).watched
      (app.carried (fun service => service) app.store) :=
    app.alike_watched (fun _ _ _ _ same => same) app.store
  rw [app.carried_self] at services
  refine (services.handlerOf (fun _ => rfl) ?_ ?_ r rfl).eq
  · exact fun _ r _ => (services.health app.storeKind_watched r).same fun _ => rfl
  · exact fun _ => alike_metrics_logs _ _

end App

end Gatehouse
