import Gatehouse.Proofs.App.Stages
import Mathlib.Data.List.Forall2

/-!
An app whose store always fails.

A store that never gives a count lets every request pass, and each limiter that asks
it counts one failure. Nothing else of an app can tell: beside the same app without
a store it gives the same responses, up to what tells of the store itself
(`App.Resembles`), and the worlds differ in the store and its failures only
(`App.Mirrors`).

* `Limit.Limiter.alike_failing` has it for a limiter.
* `App.failing_store_is_no_store` has it for every run of requests.
-/

namespace Gatehouse

open Http Auth Limit

variable {σ ω : Type}

/-- No increment gives a count: each one fails or hangs. -/
def Store.Fails (s : Store σ) : Prop :=
  ∀ clock key window o n, (s.increment clock key window o).1 ≠ .ready n

namespace App

/-- The worlds are the same, but for the state of the store and the count of its
failures. -/
structure Mirrors (w' : World (σ × ω)) (w : World ω) : Prop where
  clock : w'.clock = w.clock
  seeds : w'.seeds = w.seeds
  drawn : w'.drawn = w.drawn
  services : w'.outside.2 = w.outside
  rejections : w'.metrics.rejections = w.metrics.rejections
  authFailures : w'.metrics.authFailures = w.metrics.authFailures
  callbacks : w'.metrics.callbacks = w.metrics.callbacks

/-- A body without what it says of the kind of the store. -/
def withoutKind : Body → Body
  | .json (.object members) => .json (.object (members.filter fun m => m.1 != "store"))
  | body => body

/-- The bodies of two responses for a path are the same up to what tells of the store:
its kind in the route of health, and its failures in that of the metrics. -/
inductive Resembles (path : String) : Body → Body → Prop where
  | same (body : Body) : Resembles path body body
  | health {body' body : Body} : path = "/health" → withoutKind body' = withoutKind body →
      Resembles path body' body
  | metrics (m : Metrics) (n : Nat) : path = "/metrics" →
      Resembles path (.text { m with storeFaults := n }.expose) (.text m.expose)

/-- Answer requests one after another, each some time after the one before. -/
def serve (app : App ω) : List (Span × Request) → Act ω (List (Request × Response))
  | [] => pure []
  | (elapsed, r) :: rest => do
      Act.advance elapsed
      let response ← app.respond r
      let others ← app.serve rest
      return (r, response) :: others

/-- Requests that are the same, with responses that are alike. -/
def LikeAnswers (B : String → Body → Body → Prop) (e' e : Request × Response) : Prop :=
  e'.1 = e.1 ∧ Response.Alike (B e.1.path) e'.2 e.2

theorem alike_serve {ω' : Type} {R : World ω' → World ω → Prop} {B : String → Body → Body → Prop}
    {app' : App ω'} {app : App ω}
    (advances : ∀ s, Act.Alike R Eq (Act.advance s) (Act.advance s))
    (responds : ∀ path, Handler.Alike R path (B path) app'.respond app.respond)
    (arrivals : List (Span × Request)) :
    Act.Alike R (List.Forall₂ (LikeAnswers B)) (app'.serve arrivals) (app.serve arrivals) := by
  induction arrivals with
  | nil => exact .pure .nil
  | cons arrival rest ih =>
      obtain ⟨elapsed, r⟩ := arrival
      refine .andThen (advances elapsed) fun _ => ?_
      refine .bind (responds r.path r rfl) fun a' a like => ?_
      exact .bind ih fun others' others answers => .pure (.cons ⟨rfl, like⟩ answers)

/-! ### The failing app, watched -/

/-- Beside the world of an app without a store, the watched world of one with a store
that fails: each count that was noted is a failure that was counted. -/
def Tallies (start : Nat) (w' : World (Log × (σ × ω))) (w : World ω) : Prop :=
  ∃ plain log, Mirrors plain w ∧ plain.metrics.storeFaults = start + log.length ∧
    w' = plain.logging log

variable {start : Nat}

theorem Mirrors.metrics {w' : World (σ × ω)} {w : World ω} (h : Mirrors w' w) :
    w'.metrics = { w.metrics with storeFaults := w'.metrics.storeFaults } := by
  dsimp only
  rw [← h.rejections, ← h.authFailures, ← h.callbacks]

theorem likeness_tallies : Likeness (Tallies (σ := σ) (ω := ω) start) where
  clock := by
    rintro w' w ⟨plain, log, mirrors, -, rfl⟩
    exact mirrors.clock
  draw := by
    rintro w' w ⟨plain, log, mirrors, counted, rfl⟩
    refine ⟨congr mirrors.seeds mirrors.drawn, { plain with drawn := plain.drawn + 1 }, log, ?_,
      counted, rfl⟩
    exact { mirrors with drawn := congrArg (· + 1) mirrors.drawn }
  authFailure := by
    rintro metered w' w ⟨plain, log, mirrors, counted, rfl⟩
    refine ⟨rfl, (Act.record metered Metrics.recordAuthFailure plain).2, log, ?_, ?_,
      Act.record_logging _ _ plain log⟩
    · cases metered with
      | false => exact mirrors
      | true => exact { mirrors with authFailures := congrArg (· + 1) mirrors.authFailures }
    · cases metered <;> exact counted
  callback := by
    rintro label w' w ⟨plain, log, mirrors, counted, rfl⟩
    refine ⟨rfl, (Act.record true (Metrics.recordCallback label) plain).2, log, ?_, counted, rfl⟩
    exact { mirrors with callbacks := congrArg (Tally.bump · label) mirrors.callbacks }

/-- A service replies the same beside a store and a log. -/
theorem serves_tallies {α : Type} (service : ω → α × ω) :
    Act.Alike (Tallies (σ := σ) start) Eq (Act.ask (beside (aside service))) (Act.ask service) := by
  rintro w' w ⟨plain, log, mirrors, counted, rfl⟩
  have reply : service plain.outside.2 = service w.outside := congrArg service mirrors.services
  refine ⟨congrArg Prod.fst reply, (Act.ask (aside service) plain).2, log, ?_, counted, rfl⟩
  exact { mirrors with services := congrArg Prod.snd reply }

theorem alike_tallies (app : App ω) (s : Store σ) :
    Alike (Tallies start) (app.withStore s).watched app.withoutStore := by
  rw [withStore, watched_carried]
  exact app.alike_carried likeness_tallies serves_tallies _ _

theorem advance_tallies (elapsed : Span) :
    Act.Alike (Tallies (σ := σ) (ω := ω) start) Eq (Act.advance elapsed) (Act.advance elapsed) := by
  rintro w' w ⟨plain, log, mirrors, counted, rfl⟩
  refine ⟨rfl, { plain with clock := plain.clock.advance elapsed }, log, ?_, counted, rfl⟩
  exact { mirrors with clock := congrArg (Clock.advance · elapsed) mirrors.clock }

/-- The check of a store that fails has no count, and touches that store only. -/
theorem check_of_fails {s : Store σ} (fails : s.Fails) (deadline : Span) (key : String) (cap : Nat)
    (window : Span) (w : World (σ × ω)) :
    ∃ fault part, check s.inFront deadline key cap window w =
      (.error fault, { w with outside := (part, w.outside.2) }) := by
  have uncounted := fails w.clock key window w.outside.1
  rcases counted : s.increment w.clock key window w.outside.1 with ⟨reply, part⟩
  rw [counted] at uncounted
  cases reply with
  | ready n => exact absurd rfl (uncounted n)
  | failed reason =>
      refine ⟨.transport reason, part, ?_⟩
      simp [check, Store.inFront, Store.lift, Store.onPart, Store.settle, counted]
  | stalled =>
      refine ⟨.timeout deadline, part, ?_⟩
      simp [check, Store.inFront, Store.lift, Store.onPart, Store.settle, counted]

/-- **A limiter whose store fails passes every request**, and counts a failure for each
that it would have counted. -/
theorem alike_failing {s : Store σ} (fails : s.Fails) {l : Limiter (σ × ω)} {idle : Limiter ω}
    (has : l.store = some s.inFront) (lacks : idle.store = none) (metered : l.metered = true)
    (path : String) (B : Body → Body → Prop) :
    Layer.Alike (Tallies start) path B l.watched.guard idle.guard := by
  rintro next' next like r here w' w ⟨plain, log, mirrors, counted, rfl⟩
  rw [idle.guard_of_uncounted r w (.inl lacks)]
  cases keyed : l.keyFor r with
  | none =>
      rw [l.watched.guard_of_uncounted r _ (.inr keyed)]
      exact like r here _ _ ⟨plain, log, mirrors, counted, rfl⟩
  | some key =>
      have has' : l.watched.store = some s.inFront.watched := by
        rw [Limiter.watched, has, Option.map_some]
      obtain ⟨fault, part, failed⟩ :=
        check_of_fails fails l.deadline key (l.capFor r) l.window plain
      have noted := check_watched s.inFront l.deadline key (l.capFor r) l.window plain log
      rw [failed] at noted
      rw [l.watched.guard_of_counted r _ has' keyed, l.watched.gate_of_error r _ noted next']
      have tallied : ∀ more : Log, more.length = 1 → Tallies start
          (Act.record l.watched.metered Metrics.recordStoreFault
            (World.logging { plain with outside := (part, plain.outside.2) }
              (log ++ more))).2 w := by
        intro more one
        rw [show l.watched.metered = true from metered]
        refine ⟨{ plain with
          metrics := plain.metrics.recordStoreFault
          outside := (part, plain.outside.2) }, _, { mirrors with }, ?_, rfl⟩
        show plain.metrics.storeFaults + 1 = start + (log ++ more).length
        rw [List.length_append, one, counted, Nat.add_assoc]
      exact like r here _ _ (tallied _ rfl)

theorem alikeOn_tallies {s : Store σ} (fails : s.Fails) (app : App ω) (path : String) :
    AlikeOn (Tallies start) path (Resembles path) (app.withStore s).watched app.withoutStore where
  same := .same
  client := alike_failing fails (l := (app.withStore s).clientLimiter) rfl rfl rfl _ _
  endpoint := alike_failing fails (l := (app.withStore s).endpointLimiter) rfl rfl rfl _ _
  user := alike_failing fails (l := (app.withStore s).userLimiter) rfl rfl rfl _ _
  workspace := by
    rw [WorkspaceLimiter.guard_eq, WorkspaceLimiter.guard_eq]
    exact alike_failing fails (l := (app.withStore s).workspaceLimiter.asLimiter) rfl rfl rfl _ _
  health here r _ := by
    refine .andThen (alike_tallies app s).isHealthy fun healthy => .pure (.ofJson _ ?_)
    exact .health here rfl
  metrics here r _ := by
    refine .get ?_
    rintro w' w ⟨plain, log, mirrors, -, rfl⟩
    refine .pure (.ofText _ _ ?_)
    rw [show (plain.logging log).metrics = plain.metrics from rfl, mirrors.metrics]
    exact .metrics _ _ here

/-- Watched, an app answers the same. -/
theorem serve_watched (app : App ω) (s : Store σ) (arrivals : List (Span × Request)) :
    Act.Alike (Logs fun _ _ _ => True) (List.Forall₂ (LikeAnswers fun _ => Eq))
      ((app.withStore s).watched.serve arrivals) ((app.withStore s).serve arrivals) := by
  refine alike_serve ?_ (fun path => Alike.respond ?_ (alikeOn_watched ?_ ?_ path)) arrivals
  · rintro elapsed w' w ⟨log, -, rfl⟩
    exact ⟨rfl, log, trivial, rfl⟩
  · exact app.alike_watched (fun _ _ _ _ h => h) _
  · exact app.alike_watched (fun _ _ _ _ h => h) _
  · exact fun _ _ _ _ _ _ _ => trivial

theorem eq_of_forall₂ {answers' answers : List (Request × Response)}
    (same : List.Forall₂ (LikeAnswers fun _ => Eq) answers' answers) : answers' = answers := by
  induction same with
  | nil => rfl
  | cons like _ ih => rw [Prod.ext like.1 like.2.eq, ih]

/-- **An app whose store always fails is an app without a store.** -/
theorem failing_store_is_no_store (app : App ω) {s : Store σ} (fails : s.Fails)
    {w' : World (σ × ω)} {w : World ω} (start : Mirrors w' w) (arrivals : List (Span × Request)) :
    let failing := (app.withStore s).serve arrivals w'
    let bare := app.withoutStore.serve arrivals w
    List.Forall₂ (LikeAnswers Resembles) failing.1 bare.1 ∧ Mirrors failing.2 bare.2 ∧
      ∃ tried : Log,
        (app.withStore s).watched.serve arrivals (w'.logging []) =
          (failing.1, failing.2.logging tried) ∧
        failing.2.metrics.storeFaults = w'.metrics.storeFaults + tried.length := by
  intro failing bare
  obtain ⟨same, noted, -, after⟩ :=
    serve_watched app s arrivals (w'.logging []) w' ⟨[], trivial, rfl⟩
  have watched : (app.withStore s).watched.serve arrivals (w'.logging []) =
      (failing.1, failing.2.logging noted) := Prod.ext (eq_of_forall₂ same) after
  obtain ⟨answers, plain, tried, mirrors, counted, ends⟩ := alike_serve advance_tallies
    (fun path => (alike_tallies app s).respond (alikeOn_tallies fails app path)) arrivals
    (w'.logging []) w ⟨w', [], start, rfl, rfl⟩
  rw [watched] at answers ends
  obtain ⟨rfl, rfl⟩ := World.logging_inj ends
  exact ⟨answers, mirrors, noted, watched, counted⟩

/-- A store that fails and hangs by turns. -/
def brokenStore : Store Bool where
  increment _ _ _ hangs := (if hangs then .stalled else .failed "connection refused", !hangs)
  count _ _ hangs := (.stalled, hangs)
  ttl _ _ hangs := (.stalled, hangs)

/-- A page of a workspace, and a second later the metrics. -/
def twoVisits : List (Span × Request) :=
  [(0, crowdedVisit),
    (Span.seconds 1, { crowdedVisit with target := ⟨none, none, "/metrics", none⟩ })]

/-- Four limiters ask for the page, and one for the metrics. -/
theorem broken_store_goes_unnoticed :
    brokenStore.Fails ∧ Mirrors (World.fresh (false, ())) (World.fresh ()) ∧
      List.Forall₂ (LikeAnswers Resembles)
        ((crowdedApp.withStore brokenStore).serve twoVisits (.fresh (false, ()))).1
        (crowdedApp.withoutStore.serve twoVisits (.fresh ())).1 ∧
      ((crowdedApp.withStore brokenStore).serve twoVisits
        (.fresh (false, ()))).2.metrics.storeFaults = 5 := by
  have fails : brokenStore.Fails := by
    intro clock key window hangs n
    cases hangs <;> simp [brokenStore]
  have start : Mirrors (World.fresh (false, ())) (World.fresh ()) := by
    constructor <;> rfl
  obtain ⟨answers, -, tried, watched, counted⟩ :=
    failing_store_is_no_store crowdedApp fails start twoVisits
  refine ⟨fails, start, answers, ?_⟩
  have noted : _ = tried.length := congrArg (fun p => p.2.outside.1.length) watched
  rw [counted, ← noted]
  decide +kernel

end App

end Gatehouse
