import Gatehouse.Proofs.App.Stages
import Gatehouse.Proofs.Limit.Admission

/-!
How often a client gets to an endpoint.

In an app over a memory all limiters count in the same windows. A request counts a few
keys at one instant (`Limit.Replays`), and a run of requests keeps the memory in step
with the windows of every key (`App.tracks_run`). A request that reaches an endpoint
with a limit was counted within it (`App.mem_charges_of_runs`), so a window of its
client sees no more of them than the limit says.

* `App.reached_le_limit` has it for every method and path with a limit.
* `App.attempts_le_limits` has it for the handlers of the login and of its callback,
  as long as they are not asked for with `HEAD`: such a request has another key
  (`App.head_logins_are_unlimited`).
-/

namespace Gatehouse

open Http Auth Limit

/-! ### The counts of one instant -/

namespace Limit

/-- A memory counts one key after another at one instant and with one length of
windows. The log has each key with the reply. -/
inductive Replays (window : Span) (now : Instant) (m : Memory) : Log → Memory → Prop where
  | done : Replays window now m [] m
  | count {counts : Log} {mid : Memory} (key : String) : Replays window now m counts mid →
      Replays window now m (counts ++ [(key, .ready (mid.increment now key window).1)])
        (mid.increment now key window).2

/-- The numbers that a key got at an instant. -/
def numbersOf (key : String) (clock : Clock) (counts : Log) : List (Clock × Nat) :=
  counts.filterMap fun c =>
    match c.2 with
    | .ready n => if c.1 = key then some (clock, n) else none
    | _ => none

section Replays

variable {ω : Type} {window : Span} {now : Instant} {m m' : Memory} {counts : Log} {key : String}
  {clock : Clock}

/-- A memory always replies. -/
theorem Replays.ready (h : Replays window now m counts m') : ∀ c ∈ counts, ∃ n, c.2 = .ready n := by
  induction h with
  | done => exact nofun
  | count key _ ih =>
      intro c hc
      rcases List.mem_append.mp hc with early | last
      · exact ih c early
      · rw [List.mem_singleton.mp last]
        exact ⟨_, rfl⟩

theorem mem_numbersOf {n : Nat} (h : (key, .ready n) ∈ counts) :
    (clock, n) ∈ numbersOf key clock counts :=
  List.mem_filterMap.mpr ⟨_, h, by simp⟩

theorem fst_of_mem_numbersOf {v : Clock × Nat} (h : v ∈ numbersOf key clock counts) :
    v.1 = clock := by
  obtain ⟨⟨k, reply⟩, -, found⟩ := List.mem_filterMap.mp h
  cases reply with
  | ready n =>
      by_cases own : k = key
      · simp only [own, if_true, Option.some.injEq] at found
        rw [← found]
      · simp [own] at found
  | failed _ => simp at found
  | stalled => simp at found

theorem numbersOf_snoc (key : String) (clock : Clock) (counts : Log) (k : String) (n : Nat) :
    numbersOf key clock (counts ++ [(k, .ready n)]) =
      numbersOf key clock counts ++ if k = key then [(clock, n)] else [] := by
  by_cases own : k = key <;> simp [numbersOf, own]

/-- **Counts of one instant keep the memory in step**, and are the numbers of their keys
in the windows. -/
theorem Tracks.replay {keys : List String} {last : String → Option Period}
    {w : World (Memory × ω)} (h : Tracks window keys last w)
    (replays : Replays window w.clock.now w.outside.1 counts m')
    (mem : ∀ c ∈ counts, c.1 ∈ keys) :
    Tracks window keys
      (fun k => Period.after window (last k) ((numbersOf k w.clock counts).map Prod.fst))
      { w with outside := (m', w.outside.2) } ∧
    ∀ k, Numbered Prod.fst Prod.snd window (last k) (numbersOf k w.clock counts) := by
  induction replays with
  | done => exact ⟨h, fun _ => trivial⟩
  | @count counts mid key _ ih =>
      obtain ⟨tracks, numbered⟩ := ih fun c hc => mem c (List.mem_append_left _ hc)
      have known : key ∈ keys := mem _ (List.mem_append_right _ (List.mem_singleton_self _))
      constructor
      · have last' : (fun k => Period.after window (last k)
              ((numbersOf k w.clock (counts ++ [(key, .ready (mid.increment w.clock.now key
                window).1)])).map Prod.fst)) =
            fun k => if k = key then some (Period.arrive window (Period.after window (last key)
                ((numbersOf key w.clock counts).map Prod.fst)) w.clock)
              else Period.after window (last k) ((numbersOf k w.clock counts).map Prod.fst) := by
          funext k
          rw [numbersOf_snoc]
          by_cases own : k = key
          · rw [if_pos own.symm, if_pos own, List.map_append, List.map_singleton,
              Period.after_snoc, own]
          · rw [if_neg (Ne.symm own), if_neg own, List.append_nil]
        rw [last']
        exact tracks.count known
      · intro k
        rw [numbersOf_snoc]
        by_cases own : key = k
        · rw [if_pos own]
          refine numbered_snoc (numbered k) ?_
          have fits := Memory.isFullFor_eq_false tracks.wellKeyed tracks.known tracks.room known
          obtain ⟨count, -⟩ := (tracks.shown key).arrive
          rw [Memory.increment_eq_put fits, ← own]
          exact count
        · rw [if_neg own, List.append_nil]
          exact numbered k

end Replays

end Limit

namespace App

variable {ω : Type}

/-! ### Requests to an app over a memory -/

/-- The app over a memory. -/
def overMemory (app : App ω) : App (Memory × ω) :=
  app.withStore Memory.store

/-- What the memory counts for a request. -/
def charges (app : App ω) (r : Request) (w : World (Memory × ω)) : Log :=
  (app.overMemory.watched.respond r (w.logging [])).2.outside.1

/-- The memory changes by what it counts, and no time passes. -/
theorem replays_charges (app : App ω) (r : Request) (w : World (Memory × ω)) :
    Replays app.window w.clock.now w.outside.1 (app.charges r w)
        (app.overMemory.respond r w).2.outside.1 ∧
      (app.overMemory.respond r w).2.clock = w.clock := by
  have services : Alike (Logs fun log clock o => clock = w.clock ∧
      Replays app.window w.clock.now w.outside.1 log o.1)
      app.overMemory.watched app.overMemory :=
    app.alike_watched (fun _ _ _ _ holds => holds) _
  have limits := alikeOn_watched services (fun store has key cap v log holds => ?_) r.path
  · obtain ⟨-, log, ⟨clock, replays⟩, after⟩ :=
      services.respond limits r rfl (w.logging []) w ⟨[], ⟨rfl, .done⟩, rfl⟩
    have noted : app.charges r w = log := congrArg (fun v => v.outside.1) after
    exact ⟨noted ▸ replays, clock⟩
  · obtain rfl := Option.some.inj has
    obtain ⟨clock, replays⟩ := holds
    refine ⟨clock, ?_⟩
    have counted := replays.count key
    rw [← clock] at counted ⊢
    exact counted

/-- The key of an endpoint and a client. -/
def endpointKey (method path client : String) : String :=
  method ++ ":" ++ path ++ ":" ++ client

/-- A request that reaches an endpoint with a limit is counted within it. -/
theorem mem_charges_of_runs (app : App ω) {r : Request} (arrives : r.context = {})
    {w : World (Memory × ω)} {limit : Nat}
    (limited : app.endpoints.lookup? r.method r.path = some limit)
    (counted : r.path ∉ app.skipPaths) (runs : (app.overMemory.around r).Runs r w) :
    ∃ n ≤ limit, (endpointKey r.method r.path (Limit.clientOf r), .ready n) ∈ app.charges r w := by
  obtain ⟨user?, counts, why, -, fares, reached, noted⟩ :=
    app.overMemory.respond_fares (by rw [arrives]) w
  have charged : app.charges r w = counts := congrArg (fun v => v.2.outside.1) (noted [])
  obtain rfl := reached.mpr runs
  have stage : .count (endpointKey r.method r.path (Limit.clientOf r)) limit ∈
      app.overMemory.stages r user? := by
    have skips : ¬ app.overMemory.skipPaths.contains r.path = true := by
      rw [List.contains_iff_mem]
      exact counted
    have known : app.overMemory.endpoints.lookup? r.method r.path = some limit := limited
    have own : app.overMemory.endpointStages r =
        [.count (endpointKey r.method r.path (Limit.clientOf r)) limit] := by
      rw [endpointStages, if_neg skips, known]
      rfl
    simp [stages, own]
  obtain ⟨reply, mem, within⟩ := fares.mem_of_count stage
  obtain ⟨n, rfl⟩ := (app.replays_charges r w).1.ready _ (charged ▸ mem)
  exact ⟨n, within n rfl, charged ▸ mem⟩

/-! ### Runs -/

/-- The world after an event. -/
def happen (app : App ω) (w : World (Memory × ω)) : Event → World (Memory × ω)
  | .request r => (app.overMemory.respond r w).2
  | .advance s => { w with clock := w.clock.advance s }
  | .purge => { w with outside := (w.outside.1.purge w.clock.now, w.outside.2) }

/-- The world after a run. -/
def endOf (app : App ω) (events : List Event) (w : World (Memory × ω)) : World (Memory × ω) :=
  events.foldl app.happen w

/-- What the memory counts for an event. -/
def chargesOf (app : App ω) (w : World (Memory × ω)) : Event → Log
  | .request r => app.charges r w
  | .advance _ | .purge => []

/-- The keys that are counted in a run. -/
def keysOf (app : App ω) : List Event → World (Memory × ω) → List String
  | [], _ => []
  | e :: rest, w => (app.chargesOf w e).map Prod.fst ++ app.keysOf rest (app.happen w e)

/-- The counts of a key in a run, each with its clock. -/
def visits (app : App ω) (key : String) : List Event → World (Memory × ω) → List (Clock × Nat)
  | [], _ => []
  | e :: rest, w =>
      numbersOf key w.clock (app.chargesOf w e) ++ app.visits key rest (app.happen w e)

section Runs

variable {app : App ω} {keys : List String} {last : String → Option Period}
  {w : World (Memory × ω)}

theorem visits_append (app : App ω) (key : String) (before after : List Event)
    (w : World (Memory × ω)) : app.visits key (before ++ after) w =
      app.visits key before w ++ app.visits key after (app.endOf before w) := by
  induction before generalizing w with
  | nil => rfl
  | cons e rest ih =>
      rw [List.cons_append, visits, visits, ih, List.append_assoc]
      rfl

theorem keysOf_append (app : App ω) (before after : List Event) (w : World (Memory × ω)) :
    app.keysOf (before ++ after) w =
      app.keysOf before w ++ app.keysOf after (app.endOf before w) := by
  induction before generalizing w with
  | nil => rfl
  | cons e rest ih =>
      rw [List.cons_append, keysOf, keysOf, ih, List.append_assoc]
      rfl

/-- One event keeps the memory in step, and its counts are the numbers of their keys. -/
theorem tracks_happen (h : Tracks app.window keys last w) (e : Event)
    (mem : ∀ c ∈ app.chargesOf w e, c.1 ∈ keys) :
    Tracks app.window keys (fun k => Period.after app.window (last k)
        ((numbersOf k w.clock (app.chargesOf w e)).map Prod.fst)) (app.happen w e) ∧
      ∀ k, Numbered Prod.fst Prod.snd app.window (last k)
        (numbersOf k w.clock (app.chargesOf w e)) := by
  cases e with
  | advance s => exact ⟨h.elapse rfl rfl, fun _ => trivial⟩
  | purge => exact ⟨h.purge, fun _ => trivial⟩
  | request r =>
      obtain ⟨replays, clock⟩ := app.replays_charges r w
      obtain ⟨tracks, numbered⟩ := h.replay replays mem
      refine ⟨tracks.elapse (s := 0) ?_ rfl, numbered⟩
      rw [advance_zero]
      exact clock

/-- **A run keeps the memory in step, and counts in windows.** -/
theorem tracks_run (h : Tracks app.window keys last w) (events : List Event)
    (mem : ∀ k ∈ app.keysOf events w, k ∈ keys) :
    Tracks app.window keys (fun k => Period.after app.window (last k)
        ((app.visits k events w).map Prod.fst)) (app.endOf events w) ∧
      ∀ k, Numbered Prod.fst Prod.snd app.window (last k) (app.visits k events w) := by
  induction events generalizing w last with
  | nil => exact ⟨h, fun _ => trivial⟩
  | cons e rest ih =>
      obtain ⟨tracks, numbered⟩ := tracks_happen h e fun c hc =>
        mem _ (List.mem_append_left _ (List.mem_map_of_mem hc))
      obtain ⟨later, others⟩ := ih tracks fun k hk => mem k (List.mem_append_right _ hk)
      refine ⟨?_, fun k => (numbered k).append (others k)⟩
      simp only [visits, List.map_append, Period.after_append]
      exact later

/-- Time passes in no event backwards. -/
theorem le_happen (e : Event) : w.clock.now ≤ (app.happen w e).clock.now := by
  cases e with
  | advance s => exact Nat.le_add_right _ s
  | purge => exact Nat.le_refl _
  | request r => exact Nat.le_of_eq (congrArg Clock.now (app.replays_charges r w).2.symm)

theorem visits_sorted (app : App ω) (key : String) (events : List Event)
    (w : World (Memory × ω)) :
    (app.visits key events w).Pairwise (fun v v' => v.1.now ≤ v'.1.now) ∧
      ∀ v ∈ app.visits key events w, w.clock.now ≤ v.1.now := by
  induction events generalizing w with
  | nil => exact ⟨.nil, nofun⟩
  | cons e rest ih =>
      obtain ⟨sorted, late⟩ := ih (app.happen w e)
      have now : ∀ v ∈ numbersOf key w.clock (app.chargesOf w e), v.1 = w.clock :=
        fun v hv => fst_of_mem_numbersOf hv
      have later : ∀ v ∈ app.visits key rest (app.happen w e), w.clock.now ≤ v.1.now :=
        fun v hv => Nat.le_trans (le_happen e) (late v hv)
      refine ⟨List.pairwise_append.mpr ⟨?_, sorted, fun v hv v' hv' => ?_⟩, fun v hv => ?_⟩
      · refine List.pairwise_of_forall_mem_list fun v hv v' hv' => ?_
        rw [now v hv, now v' hv']
      · rw [now v hv]
        exact later v' hv'
      · rcases List.mem_append.mp hv with first | second
        · rw [now v first]
        · exact later v second

end Runs

/-! ### Bounds -/

/-- The event is a request of a kind that reaches its route. -/
def Reaches (app : App ω) (kind : Request → Prop) (w : World (Memory × ω)) : Event → Prop
  | .request r => kind r ∧ (app.overMemory.around r).Runs r w
  | .advance _ | .purge => False

open Classical in
/-- The clocks at which requests of a kind reach their route in a run. -/
noncomputable def reached (app : App ω) (kind : Request → Prop) :
    List Event → World (Memory × ω) → List Clock
  | [], _ => []
  | e :: rest, w =>
      (if app.Reaches kind w e then [w.clock] else []) ++ app.reached kind rest (app.happen w e)

section Bounds

variable {app : App ω} {method path client : String} {limit : Nat} {kind : Request → Prop}

/-- Whatever reaches an endpoint with a limit was counted within it. -/
theorem countP_reached_le (limited : app.endpoints.lookup? method path = some limit)
    (counted : path ∉ app.skipPaths)
    (own : ∀ r, kind r → r.method = method ∧ r.path = path ∧ Limit.clientOf r = client)
    {events : List Event} (arrive : ∀ r, .request r ∈ events → r.context = {})
    (w : World (Memory × ω)) (q : Clock → Bool) :
    (app.reached kind events w).countP q ≤
      (app.visits (endpointKey method path client) events w).countP
        fun v => v.2 ≤ limit && q v.1 := by
  induction events generalizing w with
  | nil => exact Nat.le_refl _
  | cons e rest ih =>
      rw [reached, visits, List.countP_append, List.countP_append]
      refine Nat.add_le_add ?_
        (ih (fun r hr => arrive r (List.mem_cons_of_mem _ hr)) (app.happen w e))
      by_cases reaches : app.Reaches kind w e
      · rw [if_pos reaches]
        cases e with
        | advance s => exact reaches.elim
        | purge => exact reaches.elim
        | request r =>
            obtain ⟨is, runs⟩ := reaches
            obtain ⟨rfl, rfl, rfl⟩ := own r is
            obtain ⟨n, within, mem⟩ :=
              app.mem_charges_of_runs (arrive r List.mem_cons_self) limited counted runs
            cases hq : q w.clock with
            | false => simp [hq]
            | true =>
                have one : [w.clock].countP q = 1 := by simp [hq]
                rw [one]
                exact List.countP_pos_iff.mpr
                  ⟨(w.clock, n), mem_numbersOf mem, by simp [within, hq]⟩
      · rw [if_neg reaches]
        exact Nat.zero_le _

/-- **In the window of a counter an endpoint is reached no more often than its limit
says.** This holds of every run from an empty memory with room for the keys that occur,
and of every counter that the memory holds for the client at any point of the run. -/
theorem reached_le_limit (limited : app.endpoints.lookup? method path = some limit)
    (counted : path ∉ app.skipPaths)
    (own : ∀ r, kind r → r.method = method ∧ r.path = path ∧ Limit.clientOf r = client)
    {capacity : Nat} {w₀ : World (Memory × ω)} (empty : w₀.outside.1 = Memory.empty capacity)
    {before after : List Event} (arrive : ∀ r, .request r ∈ before ++ after → r.context = {})
    (room : (app.keysOf (before ++ after) w₀).dedup.length ≤ max 1 capacity) {e : Entry}
    (found : (app.endOf before w₀).outside.1.find? (endpointKey method path client) = some e) :
    ((app.reached kind (before ++ after) w₀).countP fun c =>
      e.expiresAt ≤ c.now + app.window ∧ c.now < e.expiresAt) ≤ limit := by
  have tracks : Tracks app.window (app.keysOf (before ++ after) w₀) (fun _ => none) w₀ :=
    tracks_empty empty room
  have few := countP_le_cap ((tracks_run tracks (before ++ after) fun _ hk => hk).2
    (endpointKey method path client)) limit
  have shown := (tracks_run tracks before fun _ hk => by
    rw [keysOf_append]
    exact List.mem_append_left _ hk).1.shown (endpointKey method path client)
  rw [found] at shown
  obtain ⟨start, ends, g, window, head⟩ := exists_mem_windows_of_shown
    (app.visits (endpointKey method path client) after (app.endOf before w₀)) shown
  rw [← visits_append] at window
  refine Nat.le_trans (countP_reached_le limited counted own arrive w₀ _) ?_
  rcases Nat.eq_zero_or_pos app.window with shut | open_
  · -- No time is within a window without length.
    refine Nat.le_trans (Nat.le_of_eq (List.countP_eq_zero.mpr fun v _ => ?_)) (Nat.zero_le _)
    simp only [shut, Bool.and_eq_true, decide_eq_true_eq, not_and, not_lt]
    exact fun _ late => late
  · have picked := countP_picks_le_of_head (visits_sorted app _ _ w₀).1 open_ few window head
    refine Nat.le_trans (Nat.le_of_eq (List.countP_congr fun v _ => ?_)) picked
    simp [picks, ends]

end Bounds

/-! ### Logins and callbacks -/

/-- The handler of a route is there for the request, which comes from the client. -/
def Calls (route : Route) (client : String) (r : Request) : Prop :=
  Route.ofPath? r.path = some route ∧ route.methods.contains r.method = true ∧
    Limit.clientOf r = client

/-- **A client gets to the handlers of the login and of its callback as often as their
limits say**, in the window of a counter and without the requests for `HEAD`. -/
theorem attempts_le_limits (app : App ω) {a b : Nat}
    (login : app.endpoints.lookup? "GET" "/login" = some a)
    (callback : app.endpoints.lookup? "GET" "/auth/callback" = some b)
    (logins : "/login" ∉ app.skipPaths) (callbacks : "/auth/callback" ∉ app.skipPaths)
    {capacity : Nat} {w₀ : World (Memory × ω)} (empty : w₀.outside.1 = Memory.empty capacity)
    {before after : List Event} (arrive : ∀ r, .request r ∈ before ++ after → r.context = {})
    (room : (app.keysOf (before ++ after) w₀).dedup.length ≤ max 1 capacity) (client : String)
    (e : Entry) :
    ((app.endOf before w₀).outside.1.find? (endpointKey "GET" "/login" client) = some e →
      ((app.reached (fun r => Calls .login client r ∧ r.method ≠ "HEAD") (before ++ after)
        w₀).countP fun c => e.expiresAt ≤ c.now + app.window ∧ c.now < e.expiresAt) ≤ a) ∧
    ((app.endOf before w₀).outside.1.find? (endpointKey "GET" "/auth/callback" client) = some e →
      ((app.reached (fun r => Calls .callback client r ∧ r.method ≠ "HEAD") (before ++ after)
        w₀).countP fun c => e.expiresAt ≤ c.now + app.window ∧ c.now < e.expiresAt) ≤ b) := by
  have get : ∀ {r : Request}, ["GET", "HEAD"].contains r.method = true → r.method ≠ "HEAD" →
      r.method = "GET" := by
    intro r allowed other
    simpa [other] using allowed
  constructor
  · refine reached_le_limit login logins ?_ empty arrive room
    rintro r ⟨⟨named, allowed, sent⟩, other⟩
    have path := Route.mem_fixed_of_ofPath? named (by simp)
    exact ⟨get allowed other, by simpa [Route.fixed] using path, sent⟩
  · refine reached_le_limit callback callbacks ?_ empty arrive room
    rintro r ⟨⟨named, allowed, sent⟩, other⟩
    have path := Route.mem_fixed_of_ofPath? named (by simp)
    exact ⟨get allowed other, by simpa [Route.fixed] using path, sent⟩

/-- A request for a route that is not protected reaches it unless a limiter answers. -/
theorem reached_request {app : App ω} {kind : Request → Prop} {r : Request}
    {w : World (Memory × ω)} (is : kind r) (arrives : r.context = {}) (free : isProtected r = false)
    (passed : (app.overMemory.respond r w).1.status ≠ 429) {rest : List Event} :
    app.reached kind (.request r :: rest) w =
      w.clock :: app.reached kind rest (app.happen w (.request r)) := by
  have runs := app.overMemory.runs_of_status (by rw [arrives]) free passed
  rw [reached, if_pos ⟨is, runs⟩]
  rfl

/-- An app that lets a client begin one login in a minute, and return from one. -/
def narrowApp : App Unit where
  endpoints := .ofList [("GET:/login", 1), ("GET:/auth/callback", 1)]

def loginBy (method : String) : Request where
  method := method
  target := ⟨none, none, "/login", none⟩
  headers := []

/-- The world of the app before the first request. -/
def quietWorld : World (Memory × Unit) :=
  .fresh (Memory.empty 10, ())

/-- The counter of a login that was just begun. -/
def firstLogin : Entry :=
  ⟨1, Span.seconds 60⟩

/-- Of two logins in a minute one gets to the handler. -/
theorem second_login_is_held :
    (narrowApp.keysOf ([.request (loginBy "GET")] ++ [.request (loginBy "GET")])
      quietWorld).dedup.length ≤ max 1 10 ∧
      (narrowApp.endOf [.request (loginBy "GET")] quietWorld).outside.1.find?
        "GET:/login:unknown" = some firstLogin ∧
      ((narrowApp.reached (fun r => Calls .login "unknown" r ∧ r.method ≠ "HEAD")
        ([.request (loginBy "GET")] ++ [.request (loginBy "GET")]) quietWorld).countP fun c =>
          firstLogin.expiresAt ≤ c.now + Span.seconds 60 ∧ c.now < firstLogin.expiresAt) ≤ 1 := by
  have room : (narrowApp.keysOf ([.request (loginBy "GET")] ++ [.request (loginBy "GET")])
      quietWorld).dedup.length ≤ max 1 10 := by decide
  have found : (narrowApp.endOf [.request (loginBy "GET")] quietWorld).outside.1.find?
      "GET:/login:unknown" = some firstLogin := by decide
  have arrive : ∀ r, Event.request r ∈ [.request (loginBy "GET")] ++ [.request (loginBy "GET")] →
      r.context = {} := by
    intro r mem
    obtain rfl : r = loginBy "GET" := by simpa using mem
    rfl
  have login : narrowApp.endpoints.lookup? "GET" "/login" = some 1 := by decide
  have callback : narrowApp.endpoints.lookup? "GET" "/auth/callback" = some 1 := by decide
  exact ⟨room, found, (attempts_le_limits narrowApp login callback (by decide) (by decide) rfl
    arrive room "unknown" firstLogin).1 found⟩

/-- **Logins by `HEAD` are not held.** The handler of the login is reached three times in
the window of a counter that lets one request pass. -/
theorem head_logins_are_unlimited :
    narrowApp.endpoints.lookup? "GET" "/login" = some 1 ∧
      (narrowApp.endOf [.request (loginBy "GET")] quietWorld).outside.1.find?
        "GET:/login:unknown" = some firstLogin ∧
      ((narrowApp.reached (Calls .login "unknown")
        [.request (loginBy "GET"), .request (loginBy "HEAD"), .request (loginBy "HEAD")]
        quietWorld).countP fun c =>
          firstLogin.expiresAt ≤ c.now + Span.seconds 60 ∧ c.now < firstLogin.expiresAt) = 3 := by
  have calls : ∀ method ∈ ["GET", "HEAD"], Calls .login "unknown" (loginBy method) :=
    fun method allowed => ⟨rfl, List.contains_iff_mem.mpr allowed, rfl⟩
  refine ⟨by decide, by decide, ?_⟩
  rw [reached_request (calls _ (by decide)) rfl (by decide) (by decide),
    reached_request (calls _ (by decide)) rfl (by decide) (by decide),
    reached_request (calls _ (by decide)) rfl (by decide) (by decide)]
  rfl

end App

end Gatehouse
