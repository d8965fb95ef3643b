import Gatehouse.Proofs.Limit.Turns

/-!
A limiter rejects no request of a key that keeps to its cap.

A memory that is full drops counters, so windows begin again at odd moments and follow
no schedule. What an entry says stays true all the same (`Backed`): its window opened at
some instant of the past, lasts as long as every other, and counts no more requests than
came since.

* `Backed.next`: counting a request keeps this, in the entry that is put.
* `History.turn`, `History.run`: so does every turn, whatever is dropped.
* `counts_le_recent`: a count is at most the number of requests of the key in the last
  window's length, so a key with no more of these than the cap is never rejected.
-/

namespace Gatehouse.Limit

open Http

variable {σ : Type}

/-! ### Entries and the requests behind them -/

/-- How many requests came in the span of a window that ends at `t`, with its end and
without its beginning. -/
def recent (window : Span) (t : Instant) (sent : List Clock) : Nat :=
  sent.countP fun c => t < c.now + window ∧ c.now ≤ t

/-- The requests bear an entry out: they are as many since its window opened as it
counts, or more. -/
def Backed (window : Span) (now : Instant) (sent : List Clock) (e : Entry) : Prop :=
  ∃ opened ≤ now, e.expiresAt = opened + window ∧
    e.count ≤ sent.countP fun c => opened ≤ c.now

section Backed

variable {window : Span} {now later : Instant} {sent : List Clock} {e : Entry} {clock : Clock}

theorem Backed.mono (h : Backed window now sent e) (le : now ≤ later) :
    Backed window later sent e := by
  obtain ⟨opened, past, ends, count⟩ := h
  exact ⟨opened, Nat.le_trans past le, ends, count⟩

theorem Backed.expiresAt_le (h : Backed window now sent e) : e.expiresAt ≤ now + window := by
  obtain ⟨opened, past, ends, -⟩ := h
  rw [ends]
  exact Nat.add_le_add_right past window

/-- One more request bears out the next entry. -/
theorem Backed.next {live : Option Entry}
    (h : ∀ e, live = some e → Backed window clock.now sent e) :
    Backed window clock.now (sent ++ [clock]) (Entry.next clock.now window live) := by
  cases live with
  | none =>
      refine ⟨clock.now, Nat.le_refl _, rfl, ?_⟩
      simp [Entry.next, List.countP_append]
  | some e =>
      obtain ⟨opened, past, ends, count⟩ := h e rfl
      refine ⟨opened, past, ends, ?_⟩
      simpa [Entry.next, List.countP_append, past] using count

/-- What a live entry counts came in the last window's length. -/
theorem Backed.count_le_recent (h : Backed window now sent e) (past : ∀ c ∈ sent, c.now ≤ now)
    (live : now < e.expiresAt) : e.count ≤ recent window now sent := by
  obtain ⟨opened, -, ends, count⟩ := h
  refine Nat.le_trans count (List.countP_mono_left fun c hc since => ?_)
  have since : opened ≤ c.now := of_decide_eq_true since
  have young : now < c.now + window :=
    Nat.lt_of_lt_of_le (ends ▸ live) (Nat.add_le_add_right since window)
  exact decide_eq_true ⟨young, past c hc⟩

end Backed

/-! ### Histories -/

/-- The clocks of the requests of a key. -/
def Turn.sent (l : Limiter (Memory × σ)) (next : Handler (Memory × σ)) (key : String) :
    List Turn → World (Memory × σ) → List Clock
  | [], _ => []
  | t :: rest, w =>
      (if t.key? l = some key then [w.clock] else []) ++ sent l next key rest (t.apply l next w)

/-- The entry of a key is borne out by the requests so far. -/
structure History (window : Span) (key : String) (sent : List Clock) (w : World (Memory × σ)) :
    Prop where
  bounded : w.outside.1.Bounded
  past : ∀ c ∈ sent, c.now ≤ w.clock.now
  backed : ∀ e, w.outside.1.find? key = some e → Backed window w.clock.now sent e

section History

variable {l : Limiter (Memory × σ)} {store : Store (Memory × σ)} {next : Handler (Memory × σ)}
  {w after : World (Memory × σ)} {key : String} {sent : List Clock} {t : Turn}

theorem history_empty {capacity : Nat} (empty : w.outside.1 = Memory.empty capacity)
    (window : Span) (key : String) : History window key [] w where
  bounded := empty ▸ Memory.bounded_empty capacity
  past := nofun
  backed e found := by
    rw [empty] at found
    cases found

theorem History.soon (h : History l.window key sent w) :
    ∀ e, w.outside.1.find? key = some e → e.expiresAt ≤ w.clock.now + l.window :=
  fun e found => (h.backed e found).expiresAt_le

/-- The request that is counted next bears out the entry that it leaves. -/
theorem History.backed_next (h : History l.window key sent w) :
    Backed l.window w.clock.now (sent ++ [w.clock])
      (Entry.next w.clock.now l.window (w.outside.1.live? w.clock.now key)) :=
  Backed.next fun e live => h.backed e (Memory.live?_eq_some_iff.mp live).1

/-- **A turn keeps the history of a key.** Its entry is counted, is kept, or is gone. -/
theorem History.turn (h : History l.window key sent w) (effect : t.Effect l w after) :
    History l.window key (sent ++ if t.key? l = some key then [w.clock] else []) after := by
  obtain ⟨s, elapsed⟩ := effect.elapsed
  have later : w.clock.now ≤ after.clock.now := by
    rw [elapsed]
    exact Nat.le_add_right _ s
  have past : ∀ c ∈ sent, c.now ≤ after.clock.now := fun c hc => Nat.le_trans (h.past c hc) later
  by_cases mine : t.key? l = some key
  · rw [if_pos mine]
    obtain ⟨n, counts⟩ := effect.counts key mine
    refine ⟨effect.bounded, fun c hc => ?_, ?_⟩
    · rcases List.mem_append.mp hc with hc | hc
      · exact past c hc
      · exact List.mem_singleton.mp hc ▸ later
    · rw [counts.entry]
      rintro _ ⟨⟩
      exact h.backed_next.mono later
  · rw [if_neg mine, List.append_nil]
    exact ⟨effect.bounded, past,
      fun e found => (h.backed e (effect.kept key mine e found)).mono later⟩

/-- A run keeps the history of a key. -/
theorem History.run (h : History l.window key sent w) (has : l.store = some store)
    (inMemory : CountsInMemory store) (leaves : LeavesMemory next) (turns : List Turn) :
    History l.window key (sent ++ Turn.sent l next key turns w) (Turn.run l next turns w) := by
  induction turns generalizing sent w with
  | nil =>
      rw [Turn.sent, List.append_nil]
      exact h
  | cons t rest ih =>
      have turned := ih (h.turn (Turn.effect has inMemory leaves h.bounded t))
      rwa [List.append_assoc] at turned

/-- What a memory reads as the count of a key is at most the number of its recent
requests. -/
theorem History.count_le_recent (h : History l.window key sent w) :
    w.outside.1.count w.clock.now key ≤ recent l.window w.clock.now sent := by
  rw [Memory.count]
  cases found : w.outside.1.live? w.clock.now key with
  | none => exact Nat.zero_le _
  | some e =>
      obtain ⟨there, live⟩ := Memory.live?_eq_some_iff.mp found
      exact (h.backed e there).count_le_recent h.past live

/-- So is the count of one more request, if windows have a length. -/
theorem History.answer_le_recent (h : History l.window key sent w) (open_ : 0 < l.window)
    {n : Nat} {m : Memory}
    (counts : Memory.Counts w.outside.1 w.clock.now key l.window n m) :
    n ≤ recent l.window w.clock.now (sent ++ [w.clock]) := by
  rw [counts.answer]
  refine h.backed_next.count_le_recent (fun c hc => ?_) (Memory.lt_expiresAt_next open_ key)
  rcases List.mem_append.mp hc with hc | hc
  · exact h.past c hc
  · exact List.mem_singleton.mp hc ▸ Nat.le_refl _

/-- A window without a length never counts a second request. -/
theorem History.answer_eq_one (h : History l.window key sent w) (closed : l.window = 0)
    {n : Nat} {m : Memory}
    (counts : Memory.Counts w.outside.1 w.clock.now key l.window n m) : n = 1 := by
  rw [counts.answer]
  cases found : w.outside.1.live? w.clock.now key with
  | none => rfl
  | some e =>
      obtain ⟨there, live⟩ := Memory.live?_eq_some_iff.mp found
      have ended := h.soon e there
      rw [closed] at ended
      exact absurd live (Nat.not_lt.mpr ended)

end History

/-- **A limiter rejects no request of a key that keeps to its cap**, however little room
its memory has and whatever this drops. After any run from an empty memory, the count
of a key is at most the number of its requests in the last window's length, the present
one included; a window without a length counts each request as the first. So a request
is not rejected when no such span has more requests of its key than the cap, unless
both the window and the cap are zero. -/
theorem counts_le_recent (l : Limiter (Memory × σ)) {store : Store (Memory × σ)}
    (has : l.store = some store) (inMemory : CountsInMemory store) {cap : Nat}
    (fixed : ∀ r, l.capFor r = cap) {next : Handler (Memory × σ)} (leaves : LeavesMemory next)
    {capacity : Nat} {w₀ : World (Memory × σ)} (empty : w₀.outside.1 = Memory.empty capacity)
    (before : List Turn) {r : Request} {key : String} (keyed : l.keyFor r = some key) :
    let w := Turn.run l next before w₀
    let sent := Turn.sent l next key before w₀
    w.outside.1.count w.clock.now key ≤ recent l.window w.clock.now sent ∧
      (∃ n, (store.increment w.clock key l.window w.outside).1 = .ready n ∧
        (0 < l.window → n ≤ recent l.window w.clock.now (sent ++ [w.clock])) ∧
        (l.window = 0 → n = 1)) ∧
      (0 < l.window ∨ 0 < cap → (∀ t, recent l.window t (sent ++ [w.clock]) ≤ cap) →
        l.guard.Runs r w) := by
  intro w sent
  have history : History l.window key sent w :=
    (history_empty empty l.window key).run has inMemory leaves before
  obtain ⟨n, ttl, left, counted⟩ := inMemory.counted history.bounded l key (l.capFor r)
  have few := fun open_ => history.answer_le_recent open_ counted.counts
  have first := fun closed => history.answer_eq_one closed counted.counts
  refine ⟨history.count_le_recent, ⟨n, counted.answer, few, first⟩, fun room kept => ?_⟩
  rw [counted.runs_iff has keyed, fixed]
  rcases Nat.eq_zero_or_pos l.window with closed | open_
  · rw [first closed]
    exact room.resolve_left (by rw [closed]; exact Nat.lt_irrefl 0)
  · exact Nat.le_trans (few open_) (kept w.clock.now)

/-- One request of a path in ten seconds. -/
def onePerPath : Limiter (Memory × Unit) :=
  { onePerTen with key := .custom fun r => some r.path }

/-- A request of one path, and one of another that takes its place in the memory. -/
def crowdedOut : List Turn :=
  [.event (.request rootRequest),
    .event (.request { rootRequest with target := ⟨none, none, "/other", none⟩ }),
    .event (.advance (Span.seconds 10))]

/-- In a memory for one key, a path whose entry was dropped is admitted once more when
its first request is ten seconds old. -/
theorem crowded_path_is_admitted :
    let w := Turn.run onePerPath plainHandler crowdedOut freshWorld
    let sent := Turn.sent onePerPath plainHandler "/" crowdedOut freshWorld ++ [w.clock]
    w.outside.1.find? "/" = none ∧ sent.map Clock.now = [0, Span.seconds 10] ∧
      (∀ t, recent (Span.seconds 10) t sent ≤ 1) ∧ onePerPath.guard.Runs rootRequest w := by
  have keyed : onePerPath.keyFor rootRequest = some "/" := by decide
  have leaves := quiet_plainHandler.leavesMemory
  have empty : freshWorld.outside.1 = Memory.empty 1 := rfl
  obtain ⟨-, -, admitted⟩ := counts_le_recent onePerPath rfl countsInMemory_memoryStore
    (fun _ => rfl) leaves empty crowdedOut keyed
  have apart : ∀ t, recent (Span.seconds 10) t (Turn.sent onePerPath plainHandler "/" crowdedOut
      freshWorld ++ [(Turn.run onePerPath plainHandler crowdedOut freshWorld).clock]) ≤ 1 := by
    intro t
    have sent : Turn.sent onePerPath plainHandler "/" crowdedOut freshWorld ++
        [(Turn.run onePerPath plainHandler crowdedOut freshWorld).clock] =
          [⟨0, 0⟩, ⟨10000000000, 10000000000⟩] := by decide
    rw [sent]
    rcases Nat.lt_or_ge t 10000000000 with early | late
    · have second : ¬ 10000000000 ≤ t := Nat.not_le.mpr early
      simp [recent, early, second, Span.seconds]
    · rw [recent, List.countP_cons_of_neg (by simpa [Span.seconds] using late)]
      exact List.countP_le_length
  exact ⟨by decide +kernel, by decide, apart, admitted (.inr Nat.one_pos) apart⟩

/-- No request at all, in a window without a length. -/
def shut : Limiter (Memory × Unit) :=
  { onePerTen with limit := 0, window := 0 }

/-- Where both the window and the cap are zero, a request is counted and rejected, though
no span as long as the window has any. -/
theorem shut_rejects_within_cap :
    shut.keyFor rootRequest = some "global" ∧ (∀ r, shut.capFor r = 0) ∧
      (∀ t, recent shut.window t [freshWorld.clock] = 0) ∧
      (memoryStore.increment freshWorld.clock "global" shut.window freshWorld.outside).1 =
        .ready 1 ∧
      ¬ shut.guard.Runs rootRequest freshWorld ∧
      (shut.guard plainHandler rootRequest freshWorld).1.status = 429 := by
  have keyed : shut.keyFor rootRequest = some "global" := by decide
  have bounded : freshWorld.outside.1.Bounded := Memory.bounded_empty 1
  obtain ⟨n, ttl, left, counted⟩ :=
    countsInMemory_memoryStore.counted bounded shut "global" (shut.capFor rootRequest)
  have first : (memoryStore.increment freshWorld.clock "global" shut.window
      freshWorld.outside).1 = .ready 1 := rfl
  obtain rfl : n = 1 := Reply.ready.inj (counted.answer.symm.trans first)
  refine ⟨keyed, fun _ => rfl, fun t => ?_, first, fun runs => ?_, rfl⟩
  · refine List.countP_eq_zero.mpr fun c _ inside => ?_
    obtain ⟨later, sooner⟩ := of_decide_eq_true inside
    exact absurd later (Nat.not_lt.mpr sooner)
  · exact absurd ((counted.runs_iff rfl keyed).mp runs) (by decide)

end Gatehouse.Limit
