import Gatehouse.Proofs.Layer
import Gatehouse.Proofs.Limit.Headers
import Gatehouse.Proofs.Store.Entries

/-!
A limiter over a memory counts in fixed windows.

The windows are first described without a store: a window of a key opens with a
request at or after the end of the last one, and lasts as long as every other
(`Period.arrive`). A run of requests, advances of the clock and purges keeps the
entries of the memory in step with these windows (`Tracks`): an entry shows the
last window of its key, and a key without an entry has no window that is open.

* `Tracks.step`, `Tracks.run` carry this through one event and a whole run, as
  long as there is room for all keys of the run.
* `check_of_tracks` reads the verdict on a request off the window of its key.
* `guard_fixed_windows` is the account of a limited request: whether it reaches
  the handler, and what its response tells of the window.
-/

namespace Gatehouse.Limit

open Http

/-! ### Windows without a store -/

/-- A window of a key: the clock when it opened, and how many requests it has
counted. -/
structure Period where
  opened : Clock
  count : Nat
  deriving DecidableEq, Repr

namespace Period

/-- The instant at which a window of the given length ends. -/
def endsAt (window : Span) (p : Period) : Instant :=
  p.opened.now + window

/-- The window that a request counts in, given the last one of its key: that one
before its end, else a new one. -/
def arrive (window : Span) (last : Option Period) (clock : Clock) : Period :=
  match last with
  | some p =>
      if clock.now < p.endsAt window then { p with count := p.count + 1 } else ⟨clock, 1⟩
  | none => ⟨clock, 1⟩

/-- The last window of a key after more requests at the given clocks. -/
def after (window : Span) (last : Option Period) (arrivals : List Clock) : Option Period :=
  arrivals.foldl (fun p clock => some (arrive window p clock)) last

end Period

/-! ### Entries and windows -/

/-- An entry shows a window: they agree on the count and the end, and without an
entry no window is open. -/
def Shows (window : Span) (now : Instant) : Option Entry → Option Period → Prop
  | some e, some p => e.count = p.count ∧ e.expiresAt = p.endsAt window
  | some _, none => False
  | none, some p => p.endsAt window ≤ now
  | none, none => True

section Shows

variable {window : Span} {now later : Instant} {e : Option Entry} {p : Option Period}

theorem Shows.mono (h : Shows window now e p) (le : now ≤ later) : Shows window later e p := by
  cases e with
  | some e => cases p <;> exact h
  | none =>
      cases p with
      | some p => exact Nat.le_trans h le
      | none => trivial

/-- An ended entry shows no more than none at all. -/
theorem Shows.filter (h : Shows window now e p) :
    Shows window now (e.filter (Entry.isLive now)) p := by
  cases e with
  | none => exact h
  | some e =>
      cases p with
      | none => exact h.elim
      | some p =>
          rw [Option.filter_some]
          split
          · exact h
          · rename_i ended
            have past : e.expiresAt ≤ now := by simpa [Entry.isLive] using ended
            show p.endsAt window ≤ now
            exact h.2 ▸ past

/-- The next entry shows the window that the request counts in. -/
theorem Shows.arrive {clock : Clock} (h : Shows window clock.now e p) :
    let next := Entry.next clock.now window (e.filter (Entry.isLive clock.now))
    next.count = (Period.arrive window p clock).count ∧
      next.expiresAt = (Period.arrive window p clock).endsAt window := by
  have shown := h.filter
  cases hlive : e.filter (Entry.isLive clock.now) with
  | none =>
      cases p with
      | none => exact ⟨rfl, rfl⟩
      | some p =>
          rw [hlive] at shown
          rw [Period.arrive, if_neg (Nat.not_lt.mpr shown)]
          exact ⟨rfl, rfl⟩
  | some live =>
      cases p with
      | none =>
          rw [hlive] at shown
          exact shown.elim
      | some p =>
          rw [hlive] at shown
          have now : clock.now < live.expiresAt :=
            of_decide_eq_true (Option.filter_eq_some_iff.mp hlive).2
          rw [Period.arrive, if_pos (shown.2 ▸ now)]
          exact ⟨congrArg (· + 1) shown.1, shown.2⟩

end Shows

/-! ### Runs -/

/-- What happens around a limiter. -/
inductive Event where
  | request (r : Request)
  | advance (s : Span)
  | purge

variable {σ : Type}

/-- The memory as the store of a state that has more in it. -/
def memoryStore : Store (Memory × σ) :=
  Memory.store.lift Prod.fst fun m s => (m, s.2)

/-- A handler that leaves the memory alone and sets no header of a limiter. Time
may pass while it runs. -/
structure Quiet (next : Handler (Memory × σ)) : Prop where
  memory : ∀ r w, (next r w).2.outside.1 = w.outside.1
  clock : ∀ r w, ∃ s, (next r w).2.clock = w.clock.advance s
  headers : ∀ r w, ∀ name ∈ [limitHeader, remainingHeader, resetHeader],
    (next r w).1.headers.getAll name = []

/-- A handler that leaves the memory alone, whatever it answers. Time may pass while
it runs. -/
structure LeavesMemory (next : Handler (Memory × σ)) : Prop where
  memory : ∀ r w, (next r w).2.outside.1 = w.outside.1
  clock : ∀ r w, ∃ s, (next r w).2.clock = w.clock.advance s

theorem Quiet.leavesMemory {next : Handler (Memory × σ)} (quiet : Quiet next) :
    LeavesMemory next :=
  ⟨quiet.memory, quiet.clock⟩

namespace Event

/-- The key that an event is counted against. -/
def key? (l : Limiter (Memory × σ)) : Event → Option String
  | request r => l.keyFor r
  | advance _ | purge => none

/-- The world after an event. -/
def apply (l : Limiter (Memory × σ)) (next : Handler (Memory × σ)) (w : World (Memory × σ)) :
    Event → World (Memory × σ)
  | request r => (l.guard next r w).2
  | advance s => { w with clock := w.clock.advance s }
  | purge => { w with outside := (w.outside.1.purge w.clock.now, w.outside.2) }

end Event

/-- The world after a run. -/
def run (l : Limiter (Memory × σ)) (next : Handler (Memory × σ)) (events : List Event)
    (w : World (Memory × σ)) : World (Memory × σ) :=
  events.foldl (Event.apply l next) w

/-- The clocks of the limited requests of a key in a run. -/
def arrivals (l : Limiter (Memory × σ)) (next : Handler (Memory × σ)) (key : String) :
    List Event → World (Memory × σ) → List Clock
  | [], _ => []
  | e :: rest, w =>
      (if e.key? l = some key then [w.clock] else []) ++ arrivals l next key rest (e.apply l next w)

/-! ### The memory in step with the windows -/

/-- The memory of a world shows the last window of every key, has room for the
keys that may occur, and every window opened at a clock from which time has run
on to the present one. -/
structure Tracks (window : Span) (keys : List String) (last : String → Option Period)
    (w : World (Memory × σ)) : Prop where
  wellKeyed : w.outside.1.WellKeyed
  known : w.outside.1.KeysIn keys
  room : keys.dedup.length ≤ w.outside.1.capacity
  shown : ∀ key, Shows window w.clock.now (w.outside.1.find? key) (last key)
  opened : ∀ key p, last key = some p → ∃ s, w.clock = p.opened.advance s

section Tracks

variable {l : Limiter (Memory × σ)} {next : Handler (Memory × σ)} {window : Span}
  {keys : List String} {last : String → Option Period} {w : World (Memory × σ)} {key : String}

theorem advance_zero (c : Clock) : c.advance 0 = c := by
  simp [Clock.advance]

theorem advance_advance (c : Clock) (s t : Span) :
    (c.advance s).advance t = c.advance (s + t) := by
  simp only [Clock.advance, Clock.mk.injEq]
  exact ⟨Nat.add_assoc .., by omega⟩

/-- A memory without entries shows that no window has opened yet. -/
theorem tracks_empty {capacity : Nat} (empty : w.outside.1 = Memory.empty capacity)
    (room : keys.dedup.length ≤ max 1 capacity) : Tracks window keys (fun _ => none) w where
  wellKeyed := empty ▸ Memory.wellKeyed_empty capacity
  known := by
    rw [empty]
    exact fun k hk => absurd hk List.not_mem_nil
  room := by
    rw [empty]
    exact room
  shown key := by
    rw [empty]
    trivial
  opened key p hp := by simp at hp

/-- Time that passes changes nothing that is shown. -/
theorem Tracks.elapse (h : Tracks window keys last w) {later : World (Memory × σ)} {s : Span}
    (clock : later.clock = w.clock.advance s) (memory : later.outside.1 = w.outside.1) :
    Tracks window keys last later where
  wellKeyed := memory ▸ h.wellKeyed
  known := memory ▸ h.known
  room := memory ▸ h.room
  shown key := by
    rw [memory, clock]
    exact (h.shown key).mono (Nat.le_add_right ..)
  opened key p hp := by
    obtain ⟨t, ht⟩ := h.opened key p hp
    exact ⟨t + s, by rw [clock, ht, advance_advance]⟩

theorem Tracks.purge (h : Tracks window keys last w) :
    Tracks window keys last
      { w with outside := (w.outside.1.purge w.clock.now, w.outside.2) } where
  wellKeyed := h.wellKeyed.purge _
  known := h.known.purge _
  room := h.room
  shown key := by
    rw [Memory.find?_purge h.wellKeyed]
    exact (h.shown key).filter
  opened := h.opened

/-- The window that a request counts in has opened at a clock of the past. -/
theorem Tracks.opened_arrive (h : Tracks window keys last w) (key : String) :
    ∃ s, w.clock = (Period.arrive window (last key) w.clock).opened.advance s := by
  have now : ∃ s, w.clock = w.clock.advance s := ⟨0, by simp [Clock.advance]⟩
  cases hp : last key with
  | none => exact now
  | some p =>
      rw [Period.arrive]
      split
      · exact h.opened key p hp
      · exact now

/-- Counting a key brings its entry in step with the window that the request
counts in. -/
theorem Tracks.count (h : Tracks window keys last w) (mem : key ∈ keys) :
    Tracks window keys
      (fun k => if k = key then some (Period.arrive window (last key) w.clock) else last k)
      { w with outside := ((w.outside.1.increment w.clock.now key window).2, w.outside.2) } := by
  have fits := Memory.isFullFor_eq_false h.wellKeyed h.known h.room mem
  rw [Memory.increment_eq_put fits]
  refine ⟨h.wellKeyed.put .., h.known.put mem _, h.room, fun k => ?_, fun k p hp => ?_⟩
  · rw [Memory.find?_put]
    by_cases hk : k = key
    · rw [if_pos hk, if_pos hk]
      exact (h.shown key).arrive
    · rw [if_neg hk, if_neg hk]
      exact h.shown k
  · by_cases hk : k = key
    · rw [if_pos hk] at hp
      cases hp
      exact h.opened_arrive key
    · rw [if_neg hk] at hp
      exact h.opened k p hp

end Tracks

/-! ### Requests -/

/-- What a request is told that counts in a window. -/
def Period.toWindow (window : Span) (cap : Nat) (clock : Clock) (p : Period) : Window :=
  Window.counted clock p.count cap (p.endsAt window - clock.now)

section Requests

variable {l : Limiter (Memory × σ)} {next : Handler (Memory × σ)} {window : Span}
  {keys : List String} {last : String → Option Period} {w : World (Memory × σ)} {key : String}
  {r : Request}

/-- A check against a memory asks for the count and for the rest of the window,
and always gets both. -/
theorem check_memoryStore (deadline : Span) (key : String) (cap : Nat) (window : Span)
    (w : World (Memory × σ)) :
    let counted := w.outside.1.increment w.clock.now key window
    check memoryStore deadline key cap window w =
      (.ok (Window.counted w.clock counted.1 cap (counted.2.ttl w.clock.now key)),
        { w with outside := (counted.2, w.outside.2) }) := rfl

/-- The verdict on a request is read off the window that it counts in. -/
theorem check_of_tracks (h : Tracks window keys last w) (mem : key ∈ keys) (open_ : 0 < window)
    (deadline : Span) (cap : Nat) :
    check memoryStore deadline key cap window w =
      (.ok ((Period.arrive window (last key) w.clock).toWindow window cap w.clock),
        { w with
          outside := ((w.outside.1.increment w.clock.now key window).2, w.outside.2) }) := by
  have fits := Memory.isFullFor_eq_false h.wellKeyed h.known h.room mem
  obtain ⟨count, ends⟩ := (h.shown key).arrive
  rw [check_memoryStore, Memory.increment_eq_put fits,
    Memory.ttl_put (Memory.lt_expiresAt_next open_ key)]
  simp only [Period.toWindow, ← count, ← ends, Memory.live?]

/-- A limiter with a memory puts a counted request to its gate. -/
theorem guard_eq_gate (store : l.store = some memoryStore) (counted : l.keyFor r = some key)
    (next : Handler (Memory × σ)) (w : World (Memory × σ)) :
    l.guard next r w = l.gate memoryStore key next r w :=
  l.guard_of_counted r w store counted next

/-- A limited request counts its key once, whether or not it passes. -/
theorem guard_leaves (store : l.store = some memoryStore) (quiet : Quiet next)
    (counted : l.keyFor r = some key) (w : World (Memory × σ)) :
    (l.guard next r w).2.outside.1 = (w.outside.1.increment w.clock.now key l.window).2 ∧
      ∃ s, (l.guard next r w).2.clock = w.clock.advance s := by
  have hc := check_memoryStore l.deadline key (l.capFor r) l.window w
  rw [guard_eq_gate store counted]
  by_cases past : l.capFor r < (w.outside.1.increment w.clock.now key l.window).1
  · rw [l.gate_of_past r w hc past]
    refine ⟨?_, 0, ?_⟩
    · by_cases hm : l.metered <;> simp [hm]
    · by_cases hm : l.metered <;> simp [hm, Clock.advance]
  · rw [l.gate_of_within r w hc (Nat.le_of_not_lt past)]
    exact ⟨quiet.memory .., quiet.clock ..⟩

/-- A request that is not limited leaves the memory alone. -/
theorem guard_leaves_uncounted (quiet : Quiet next) (uncounted : l.keyFor r = none)
    (w : World (Memory × σ)) :
    (l.guard next r w).2.outside.1 = w.outside.1 ∧
      ∃ s, (l.guard next r w).2.clock = w.clock.advance s := by
  rw [l.guard_of_uncounted r w (.inr uncounted)]
  exact ⟨quiet.memory .., quiet.clock ..⟩

/-- One event keeps the memory in step: it counts in the window of its key, if it
has one. -/
theorem Tracks.step (h : Tracks l.window keys last w) (store : l.store = some memoryStore)
    (quiet : Quiet next) (e : Event) (mem : ∀ k, e.key? l = some k → k ∈ keys) :
    Tracks l.window keys
      (fun k =>
        if e.key? l = some k then some (Period.arrive l.window (last k) w.clock) else last k)
      (e.apply l next w) := by
  cases e with
  | advance s => exact h.elapse rfl rfl
  | purge => exact h.purge
  | request r =>
      show Tracks l.window keys (fun k => if l.keyFor r = some k then _ else _)
        (l.guard next r w).2
      cases hk : l.keyFor r with
      | none =>
          obtain ⟨memory, s, clock⟩ := guard_leaves_uncounted quiet hk w
          simpa using h.elapse clock memory
      | some key =>
          obtain ⟨memory, s, clock⟩ := guard_leaves store quiet hk w
          have counts := (h.count (mem key hk)).elapse (s := s) clock memory
          have unfolded : (fun k => if some key = some k then
              some (Period.arrive l.window (last k) w.clock) else last k) =
              fun k =>
                if k = key then some (Period.arrive l.window (last key) w.clock) else last k := by
            funext k
            by_cases same : k = key
            · simp [same]
            · simp [same, Ne.symm same]
          rw [unfolded]
          exact counts

/-- A run keeps the memory in step with the windows that its requests open. -/
theorem Tracks.run (h : Tracks l.window keys last w) (store : l.store = some memoryStore)
    (quiet : Quiet next) (events : List Event)
    (mem : ∀ e ∈ events, ∀ k, e.key? l = some k → k ∈ keys) :
    Tracks l.window keys
      (fun k => Period.after l.window (last k) (arrivals l next k events w))
      (run l next events w) := by
  induction events generalizing w last with
  | nil => exact h
  | cons e rest ih =>
      have one := h.step store quiet e (mem e List.mem_cons_self)
      have more := ih one fun e' he' => mem e' (List.mem_cons_of_mem _ he')
      have unfolded : (fun k => Period.after l.window (last k) (arrivals l next k (e :: rest) w)) =
          fun k => Period.after l.window
            (if e.key? l = some k then some (Period.arrive l.window (last k) w.clock) else last k)
            (arrivals l next k rest (e.apply l next w)) := by
        funext k
        by_cases hk : e.key? l = some k
        · simp [arrivals, hk, Period.after]
        · simp [arrivals, hk]
      rw [unfolded]
      exact more

end Requests

/-! ### Limited requests -/

/-- What the response to a request tells of the window `p` that the request
counts in: the cap, what is left of it, the first whole second at which the
window is over, and past the cap the whole seconds to wait. -/
structure Tells (window : Span) (cap : Nat) (clock : Clock) (p : Period) (response : Response) :
    Prop where
  limit : response.headers.getAll limitHeader = [Window.numeral cap]
  remaining : response.headers.getAll remainingHeader = [Window.numeral (cap - p.count)]
  reset : ∃ n, IsLeast {n : Nat | p.opened.wall + window ≤ Span.seconds n} n ∧
    response.headers.getAll resetHeader = [Window.numeral n]
  retry : cap < p.count → ∃ n,
    IsLeast {n : Nat | p.endsAt window - clock.now ≤ Span.seconds n} n ∧
      response.headers.getAll retryHeader = [Window.numeral (max 1 n)]

section Tells

variable {window : Span} {cap : Nat} {clock : Clock} {p : Period} {s : Span}

/-- As both readings of a clock move together, the rest of a window leads from
the wall clock to where its length leads from the wall clock at its opening. -/
theorem wall_add_rest (opened : clock = p.opened.advance s)
    (running : clock.now ≤ p.endsAt window) :
    clock.wall + ((p.endsAt window - clock.now : Nat) : Int) = p.opened.wall + window := by
  have rest : ∀ (start length passed : Nat) (wall : Int), start + passed ≤ start + length →
      wall + passed + ((start + length - (start + passed) : Nat) : Int) = wall + length := by
    intro start length passed wall fits
    omega
  subst opened
  exact rest _ _ _ _ running

/-- The window that a request counts in has not ended. -/
theorem Period.lt_endsAt_arrive (open_ : 0 < window) (last : Option Period) (clock : Clock) :
    clock.now < (Period.arrive window last clock).endsAt window := by
  have fresh : clock.now < (⟨clock, 1⟩ : Period).endsAt window := Nat.lt_add_of_pos_right open_
  cases last with
  | none => exact fresh
  | some p =>
      rw [Period.arrive]
      split
      · assumption
      · exact fresh

/-- The reset that a window tells is the end of the window on the wall clock. -/
theorem isLeast_reset (opened : clock = p.opened.advance s) (running : clock.now < p.endsAt window)
    (cap : Nat) :
    IsLeast {n : Nat | p.opened.wall + window ≤ Span.seconds n}
      (p.toWindow window cap clock).resetAt := by
  have least := clock.isLeast_resetAt (p.endsAt window - clock.now)
  rwa [wall_add_rest opened (Nat.le_of_lt running)] at least

theorem tells_of_tell (opened : clock = p.opened.advance s) (running : clock.now < p.endsAt window)
    (within : p.count ≤ cap) {response : Response}
    (untold : response.headers.getAll remainingHeader = []) :
    Tells window cap clock p (response.mapHeaders (p.toWindow window cap clock).tell) := by
  have written := Window.tell_eq_writeHeaders (p.toWindow window cap clock) _ untold
  obtain ⟨limit, remaining, reset⟩ :=
    (p.toWindow window cap clock).getAll_writeHeaders response.headers
  rw [← written] at limit remaining reset
  exact ⟨limit, remaining, ⟨_, isLeast_reset opened running cap, reset⟩,
    fun past => absurd past (Nat.not_lt.mpr within)⟩

theorem tells_of_tellRejected (opened : clock = p.opened.advance s)
    (running : clock.now < p.endsAt window) (response : Response) :
    Tells window cap clock p (response.mapHeaders (p.toWindow window cap clock).tellRejected) := by
  obtain ⟨limit, remaining, reset, retry⟩ :=
    (p.toWindow window cap clock).getAll_tellRejected response.headers
  exact ⟨limit, remaining, ⟨_, isLeast_reset opened running cap, reset⟩,
    fun _ => ⟨_, Span.isLeast_ceilSeconds _, retry⟩⟩

end Tells

/-- **A limiter over a memory admits the first requests of every window, up to
the cap, and tells of that window.** After any run from an empty memory with
room for the keys that occur, a limited request counts in the window of its key
that its arrival decides. It reaches the handler exactly when its number in the
window is within the cap, and else is answered by the limiter; either way its
response tells of the window. The cap is the sum of base and burst as far as it
fits 64 bits. -/
theorem guard_fixed_windows (l : Limiter (Memory × σ)) (store : l.store = some memoryStore)
    (open_ : 0 < l.window) {next : Handler (Memory × σ)} (quiet : Quiet next) {capacity : Nat}
    {w₀ : World (Memory × σ)} (empty : w₀.outside.1 = Memory.empty capacity)
    (before : List Event) {r : Request} {key : String} (counted : l.keyFor r = some key)
    (word : l.baseFor r ≤ Text.Decimal.max64)
    (room : ((before ++ [Event.request r]).filterMap (Event.key? l)).dedup.length ≤
      max 1 capacity) :
    let w := run l next before w₀
    let p := Period.arrive l.window
      (Period.after l.window none (arrivals l next key before w₀)) w.clock
    let cap := min (l.baseFor r + l.burst) Text.Decimal.max64
    (l.guard.Runs r w ↔ p.count ≤ cap) ∧
      (cap < p.count → ∃ after, l.guard.Answers r w (l.guard next r w).1 after) ∧
      Tells l.window cap w.clock p (l.guard next r w).1 := by
  intro w p cap
  have hcap : l.capFor r = cap := l.capFor_eq_min r word
  have mem : ∀ e ∈ before ++ [Event.request r], ∀ k, e.key? l = some k →
      k ∈ (before ++ [Event.request r]).filterMap (Event.key? l) :=
    fun e he k hk => List.mem_filterMap.mpr ⟨e, he, hk⟩
  have start : Tracks l.window _ _ w₀ := tracks_empty empty room
  have tracks := start.run store quiet before fun e he => mem e (List.mem_append_left _ he)
  obtain ⟨inner, checked⟩ : ∃ inner, check memoryStore l.deadline key (l.capFor r) l.window w =
      (.ok (p.toWindow l.window cap w.clock), inner) := by
    rw [hcap]
    exact ⟨_, check_of_tracks tracks (mem (.request r) (by simp) key counted) open_ l.deadline cap⟩
  obtain ⟨s, opened⟩ := tracks.opened_arrive key
  have running := Period.lt_endsAt_arrive open_
    (Period.after l.window none (arrivals l next key before w₀)) w.clock
  have gate := guard_eq_gate store counted
  by_cases within : p.count ≤ cap
  · have forwards := l.gate_of_within r w checked within
    refine ⟨⟨fun _ => within, fun _ => ?_⟩, fun past => absurd past (Nat.not_lt.mpr within), ?_⟩
    · exact Layer.Forwards.runs fun next => (gate next w).trans (forwards next)
    · rw [gate, forwards next]
      exact tells_of_tell opened running within (quiet.headers _ _ _ (by simp))
  · have past := Nat.lt_of_not_le within
    have answers : l.guard.Answers r w _ _ := fun next =>
      (gate next w).trans (l.gate_of_past r w checked past next)
    refine ⟨⟨fun runs => absurd runs answers.not_runs, fun le => absurd le within⟩, fun _ => ?_, ?_⟩
    · rw [answers next]
      exact ⟨_, answers⟩
    · rw [answers next]
      exact tells_of_tellRejected opened running _

/-- One request in ten seconds, whoever sends it. -/
def onePerTen : Limiter (Memory × Unit) :=
  { limit := 1, window := Span.seconds 10, key := .everything, store := some memoryStore }

/-- A handler without side effects. -/
def plainHandler : Handler (Memory × Unit) := fun _ w => (Response.bare 200, w)

/-- A request for the root path. -/
def rootRequest : Request :=
  { method := "GET", target := ⟨none, none, "/", none⟩, headers := [] }

/-- A world with room for one key. -/
def freshWorld : World (Memory × Unit) :=
  .fresh (Memory.empty 1, ())

/-- A request, and four seconds later a purge. -/
def oneRequest : List Event :=
  [.request rootRequest, .advance (Span.seconds 4), .purge]

theorem quiet_plainHandler : Quiet plainHandler where
  memory _ _ := rfl
  clock _ w := ⟨0, by simp [plainHandler, Clock.advance]⟩
  headers _ _ _ _ := rfl

/-- The second request in ten seconds does not reach the handler, and is told to
wait for the six seconds that are left. -/
theorem second_request_waits :
    onePerTen.keyFor rootRequest = some "global" ∧
      ¬ onePerTen.guard.Runs rootRequest (run onePerTen plainHandler oneRequest freshWorld) ∧
      (onePerTen.guard plainHandler rootRequest
        (run onePerTen plainHandler oneRequest freshWorld)).1.headers.getAll retryHeader =
          [Window.numeral 6] := by
  have counted : onePerTen.keyFor rootRequest = some "global" := by decide
  have empty : freshWorld.outside.1 = Memory.empty 1 := rfl
  obtain ⟨runs, -, tells⟩ := guard_fixed_windows onePerTen rfl (by decide) quiet_plainHandler
    empty oneRequest counted (by decide) (by decide)
  refine ⟨counted, fun ran => absurd (runs.mp ran) (by decide), ?_⟩
  obtain ⟨n, least, retry⟩ := tells.retry (by decide)
  have long : 6000000000 ≤ n * 1000000000 := least.1
  have short : n ≤ 6 := least.2 (show 6000000000 ≤ 6 * 1000000000 by decide)
  have six : n = 6 := by omega
  rw [retry, six]
  rfl

end Gatehouse.Limit
