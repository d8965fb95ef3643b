import Gatehouse.Proofs.Limit.Windows

/-!
How many requests of a key a limiter admits.

A limiter over a memory with room for all keys of a run admits, in each window of
a key, the requests up to the cap. A span of time that is as long as a window may
begin in the middle of one and end in the middle of the next, so it sees twice as
many at most.

* `runs_iff_increment_le`: a request is admitted when the memory counts it within
  the cap.
* `Tracks.numbered_visits`: the counts of a run are the numbers of its requests in
  the windows that their times make.
* `admissions_le_caps`: the bounds on any span as long as a window, and on the
  window of any counter that the memory holds in the run.
-/

namespace Gatehouse.Limit

open Http

variable {σ : Type}

/-! ### Handlers -/

/-- The handler, with nothing in its responses. -/
def silent (next : Handler (Memory × σ)) : Handler (Memory × σ) :=
  fun r w => (Response.bare 200, (next r w).2)

section Silent

variable {l : Limiter (Memory × σ)} {next : Handler (Memory × σ)}

theorem LeavesMemory.quiet_silent (leaves : LeavesMemory next) : Quiet (silent next) where
  memory := leaves.memory
  clock := leaves.clock
  headers _ _ _ _ := rfl

/-- What a handler answers has no part in the world that a limiter leaves. -/
theorem guard_silent (l : Limiter (Memory × σ)) (next : Handler (Memory × σ)) (r : Request)
    (w : World (Memory × σ)) : (l.guard (silent next) r w).2 = (l.guard next r w).2 := by
  rcases l.guard_cases r w with ⟨_, forwards⟩ | ⟨_, _, forwards⟩ | ⟨_, _, answers⟩
  · rw [forwards next, forwards (silent next)]
    rfl
  · rw [forwards next, forwards (silent next)]
    rfl
  · rw [answers next, answers (silent next)]

theorem Event.apply_silent (l : Limiter (Memory × σ)) (next : Handler (Memory × σ))
    (w : World (Memory × σ)) (e : Event) : e.apply l (silent next) w = e.apply l next w := by
  cases e with
  | request r => exact guard_silent l next r w
  | advance s => rfl
  | purge => rfl

theorem run_silent (l : Limiter (Memory × σ)) (next : Handler (Memory × σ)) (events : List Event)
    (w : World (Memory × σ)) : run l (silent next) events w = run l next events w := by
  induction events generalizing w with
  | nil => rfl
  | cons e rest ih =>
      show run l (silent next) rest (e.apply l (silent next) w) = run l next rest (e.apply l next w)
      rw [Event.apply_silent, ih]

end Silent

/-! ### Admissions -/

/-- The event is a request of the key that reaches the handler. -/
def Event.Reaches (l : Limiter (Memory × σ)) (key : String) (w : World (Memory × σ)) :
    Event → Prop
  | request r => l.keyFor r = some key ∧ l.guard.Runs r w
  | advance _ | purge => False

open Classical in
/-- The clocks at which requests of a key reach the handler in a run. -/
noncomputable def admissions (l : Limiter (Memory × σ)) (next : Handler (Memory × σ))
    (key : String) : List Event → World (Memory × σ) → List Clock
  | [], _ => []
  | e :: rest, w =>
      (if e.Reaches l key w then [w.clock] else []) ++
        admissions l next key rest (e.apply l next w)

/-- The limited requests of a key in a run, each with its clock and the count that
the memory gives it. -/
def visits (l : Limiter (Memory × σ)) (next : Handler (Memory × σ)) (key : String) :
    List Event → World (Memory × σ) → List (Clock × Nat)
  | [], _ => []
  | e :: rest, w =>
      (if e.key? l = some key then
        [(w.clock, (w.outside.1.increment w.clock.now key l.window).1)] else []) ++
        visits l next key rest (e.apply l next w)

section Visits

variable {l : Limiter (Memory × σ)} {next : Handler (Memory × σ)} {keys : List String}
  {last : String → Option Period} {w : World (Memory × σ)} {key : String} {events : List Event}
  {cap : Nat}

theorem admissions_silent (l : Limiter (Memory × σ)) (next : Handler (Memory × σ)) (key : String)
    (events : List Event) (w : World (Memory × σ)) :
    admissions l (silent next) key events w = admissions l next key events w := by
  induction events generalizing w with
  | nil => rfl
  | cons e rest ih => rw [admissions, admissions, Event.apply_silent, ih]

theorem map_fst_visits (l : Limiter (Memory × σ)) (next : Handler (Memory × σ)) (key : String)
    (events : List Event) (w : World (Memory × σ)) :
    (visits l next key events w).map Prod.fst = arrivals l next key events w := by
  induction events generalizing w with
  | nil => rfl
  | cons e rest ih =>
      rw [visits, arrivals, List.map_append, ih]
      by_cases counted : e.key? l = some key
      · rw [if_pos counted, if_pos counted]
        rfl
      · rw [if_neg counted, if_neg counted]
        rfl

theorem visits_append (l : Limiter (Memory × σ)) (next : Handler (Memory × σ)) (key : String)
    (before after : List Event) (w : World (Memory × σ)) :
    visits l next key (before ++ after) w =
      visits l next key before w ++ visits l next key after (run l next before w) := by
  induction before generalizing w with
  | nil => rfl
  | cons e rest ih =>
      rw [List.cons_append, visits, visits, ih, List.append_assoc]
      rfl

/-- A counted request reaches the handler when its count is within the cap. -/
theorem runs_iff_increment_le (store : l.store = some memoryStore) {r : Request}
    (counted : l.keyFor r = some key) (w : World (Memory × σ)) :
    l.guard.Runs r w ↔ (w.outside.1.increment w.clock.now key l.window).1 ≤ l.capFor r := by
  rw [l.guard_runs_iff r w store counted]
  exact l.gate_runs_iff r w (check_memoryStore l.deadline key (l.capFor r) l.window w)

/-- The admitted requests are those that are counted within the cap. -/
theorem admissions_eq (store : l.store = some memoryStore) (fixed : ∀ r, l.capFor r = cap)
    (next : Handler (Memory × σ)) (key : String) (events : List Event) (w : World (Memory × σ)) :
    admissions l next key events w =
      ((visits l next key events w).filter fun v => v.2 ≤ cap).map Prod.fst := by
  induction events generalizing w with
  | nil => rfl
  | cons e rest ih =>
      rw [admissions, visits, List.filter_append, List.map_append, ih]
      refine congrArg (· ++ _) ?_
      cases e with
      | advance s => simp [Event.Reaches, Event.key?]
      | purge => simp [Event.Reaches, Event.key?]
      | request r =>
          by_cases counted : l.keyFor r = some key
          · have runs := runs_iff_increment_le store counted w
            rw [fixed] at runs
            by_cases within : (w.outside.1.increment w.clock.now key l.window).1 ≤ cap
            · simp [Event.Reaches, Event.key?, counted, runs, within]
            · simp [Event.Reaches, Event.key?, counted, runs, within]
          · simp [Event.Reaches, Event.key?, counted]

theorem Event.elapses (store : l.store = some memoryStore) (quiet : Quiet next)
    (w : World (Memory × σ)) (e : Event) : ∃ s, (e.apply l next w).clock = w.clock.advance s := by
  cases e with
  | advance s => exact ⟨s, rfl⟩
  | purge => exact ⟨0, (advance_zero w.clock).symm⟩
  | request r =>
      cases counted : l.keyFor r with
      | none => exact (guard_leaves_uncounted quiet counted w).2
      | some key => exact (guard_leaves store quiet counted w).2

/-- The requests of a key come in the order of their times, none before the run. -/
theorem arrivals_sorted (store : l.store = some memoryStore) (quiet : Quiet next) (key : String)
    (events : List Event) (w : World (Memory × σ)) :
    (arrivals l next key events w).Pairwise (fun c d => c.now ≤ d.now) ∧
      ∀ c ∈ arrivals l next key events w, w.clock.now ≤ c.now := by
  induction events generalizing w with
  | nil => exact ⟨.nil, nofun⟩
  | cons e rest ih =>
      obtain ⟨sorted, later⟩ := ih (e.apply l next w)
      obtain ⟨s, elapsed⟩ := e.elapses store quiet w
      have after : ∀ c ∈ arrivals l next key rest (e.apply l next w), w.clock.now ≤ c.now := by
        intro c hc
        have passed := later c hc
        rw [elapsed] at passed
        exact Nat.le_trans (Nat.le_add_right _ s) passed
      rw [arrivals]
      by_cases counted : e.key? l = some key
      · rw [if_pos counted]
        refine ⟨List.pairwise_cons.mpr ⟨after, sorted⟩, fun c hc => ?_⟩
        rcases List.mem_cons.mp hc with rfl | hc
        · exact Nat.le_refl _
        · exact after c hc
      · rw [if_neg counted]
        exact ⟨sorted, after⟩

/-- **The counts of a run are the numbers of its requests in their windows.** -/
theorem Tracks.numbered_visits (h : Tracks l.window keys last w)
    (store : l.store = some memoryStore) (quiet : Quiet next)
    (mem : ∀ e ∈ events, ∀ k, e.key? l = some k → k ∈ keys) (key : String) :
    Numbered Prod.fst Prod.snd l.window (last key) (visits l next key events w) := by
  induction events generalizing w last with
  | nil => trivial
  | cons e rest ih =>
      have known := mem e List.mem_cons_self
      have others := ih (h.step store quiet e known)
        fun e' he' => mem e' (List.mem_cons_of_mem _ he')
      rw [visits]
      by_cases counted : e.key? l = some key
      · rw [if_pos counted] at others ⊢
        have fits := Memory.isFullFor_eq_false h.wellKeyed h.known h.room (known key counted)
        obtain ⟨count, -⟩ := (h.shown key).arrive
        refine ⟨?_, others⟩
        rw [Memory.increment_eq_put fits]
        exact count
      · rw [if_neg counted] at others ⊢
        exact others

/-- A cap admits of each window no more than it says. -/
theorem countP_le_cap {window : Span} {vs : List (Clock × Nat)}
    (h : Numbered Prod.fst Prod.snd window none vs) (cap : Nat) :
    ∀ g ∈ windows (fun v : Clock × Nat => v.1.now) window vs,
      g.countP (fun v => v.2 ≤ cap) ≤ cap := by
  intro g mem
  rw [countP_number_le (map_number_of_mem_windows h mem)]
  exact Nat.min_le_right _ _

theorem visits_sorted (store : l.store = some memoryStore) (quiet : Quiet next) (key : String)
    (events : List Event) (w : World (Memory × σ)) :
    (visits l next key events w).Pairwise fun v v' => v.1.now ≤ v'.1.now := by
  have sorted := (arrivals_sorted store quiet key events w).1
  rwa [← map_fst_visits, List.pairwise_map] at sorted

/-- To count what is admitted in a span is to count the requests of the span that are
counted within the cap. -/
theorem countP_admissions (store : l.store = some memoryStore) (fixed : ∀ r, l.capFor r = cap)
    (start : Instant) {q : Clock → Bool}
    (spans : ∀ c, q c = true ↔ start ≤ c.now ∧ c.now < start + l.window) :
    (admissions l next key events w).countP q =
      (visits l next key events w).countP
        (picks (fun v => v.2 ≤ cap) (fun v => v.1.now) l.window start) := by
  rw [admissions_eq store fixed, List.countP_map, List.countP_filter]
  refine List.countP_congr fun v _ => ?_
  rw [picks_iff, Bool.and_eq_true_iff, Function.comp_apply, spans]
  exact and_comm

/-- The window of a counter is one of those that the requests of its key make, those
that come later included. -/
theorem exists_mem_windows_of_shows {e : Entry} {before : List Event} (after : List Event)
    (shown : Shows l.window (run l next before w).clock.now (some e)
      (Period.after l.window none (arrivals l next key before w))) :
    ∃ start, e.expiresAt = start + l.window ∧
      ∃ g ∈ windows (fun v : Clock × Nat => v.1.now) l.window
          (visits l next key (before ++ after) w),
        g.head?.map (fun v => v.1.now) = some start := by
  rw [visits_append]
  rw [← map_fst_visits] at shown
  exact exists_mem_windows_of_shown _ shown

end Visits

/-! ### Bounds -/

/-- **A limiter over a memory admits at most twice its cap in any span as long as a
window, and at most its cap in the window of a counter.** This holds of every run
from an empty memory with room for the keys that occur; the windows are those of
the counters that the memory holds at any point of the run. -/
theorem admissions_le_caps (l : Limiter (Memory × σ)) (store : l.store = some memoryStore)
    (open_ : 0 < l.window) {cap : Nat} (fixed : ∀ r, l.capFor r = cap)
    {next : Handler (Memory × σ)} (leaves : LeavesMemory next) {capacity : Nat}
    {w₀ : World (Memory × σ)} (empty : w₀.outside.1 = Memory.empty capacity)
    (events : List Event)
    (room : (events.filterMap (Event.key? l)).dedup.length ≤ max 1 capacity) (key : String) :
    (∀ start : Instant, ((admissions l next key events w₀).countP fun c =>
        start ≤ c.now ∧ c.now < start + l.window) ≤ 2 * cap) ∧
      ∀ before after e, events = before ++ after →
        (run l next before w₀).outside.1.find? key = some e →
        ((admissions l next key events w₀).countP fun c =>
          e.expiresAt ≤ c.now + l.window ∧ c.now < e.expiresAt) ≤ cap := by
  have quiet := leaves.quiet_silent
  rw [← admissions_silent]
  have mem : ∀ e ∈ events, ∀ k, e.key? l = some k → k ∈ events.filterMap (Event.key? l) :=
    fun e he k hk => List.mem_filterMap.mpr ⟨e, he, hk⟩
  have tracks : Tracks l.window _ _ w₀ := tracks_empty empty room
  have few := countP_le_cap (tracks.numbered_visits store quiet mem key) cap
  have sorted := visits_sorted store quiet key events w₀
  constructor
  · intro start
    rw [countP_admissions store fixed start fun c => by simp]
    exact countP_picks_le_two_mul sorted open_ few start
  · rintro before after e rfl found
    have shown := (tracks.run store quiet before
      fun e he => mem e (List.mem_append_left _ he)).shown key
    rw [run_silent, found, ← run_silent] at shown
    obtain ⟨start, ends, g, window, head⟩ := exists_mem_windows_of_shows after shown
    rw [countP_admissions store fixed start fun c => by rw [ends]; simp]
    exact countP_picks_le_of_head sorted open_ few window head

/-- Two requests in ten seconds. -/
def twoPerTen : Limiter (Memory × Unit) :=
  { onePerTen with limit := 2 }

/-- A request as a window opens, another before it ends, and three as the next one
opens. -/
def aroundAnEnd : List Event :=
  [.request rootRequest, .advance (Span.seconds 9), .request rootRequest,
    .advance (Span.seconds 1), .request rootRequest, .request rootRequest, .request rootRequest]

/-- Around the end of a window three requests are admitted in ten seconds, which is
more than the cap and less than twice as many. -/
theorem three_in_ten_seconds :
    (aroundAnEnd.filterMap (Event.key? twoPerTen)).dedup.length ≤ max 1 1 ∧
      ((admissions twoPerTen plainHandler "global" aroundAnEnd freshWorld).countP fun c =>
        Span.seconds 9 ≤ c.now ∧ c.now < Span.seconds 9 + Span.seconds 10) = 3 ∧
      ∀ start, ((admissions twoPerTen plainHandler "global" aroundAnEnd freshWorld).countP fun c =>
        start ≤ c.now ∧ c.now < start + Span.seconds 10) ≤ 2 * 2 := by
  have fixed : ∀ r, twoPerTen.capFor r = 2 := fun _ => rfl
  have leaves := quiet_plainHandler.leavesMemory
  have room : (aroundAnEnd.filterMap (Event.key? twoPerTen)).dedup.length ≤ max 1 1 := by decide
  refine ⟨room, ?_, ?_⟩
  · rw [admissions_eq rfl fixed]
    decide
  · exact (admissions_le_caps twoPerTen rfl (by decide) fixed leaves rfl aroundAnEnd room
      "global").1

end Gatehouse.Limit
