import Gatehouse.Proofs.Limit.Fairness

/-!
What a rejected request is told to wait for.

A rejection tells two things: how many seconds to wait, and the second of the wall
clock at which the window has ended. Both are rounded up from what is left of the
window, or from a whole window when the store does not tell. Either way they are late
enough for the entry of the key to have ended, and an entry that no request of its key
touches ends when it was to end, or goes before.

* `Lapses.turn`, `Lapses.run`: turns of other keys leave the end of an entry as it is.
* `lapsed_of_wait`: both told times come after what is left of the window has passed.
* `retry_succeeds`: a client that keeps to either is counted as the first of a window,
  and admitted.
-/

namespace Gatehouse.Limit

open Http

variable {σ : Type}

/-! ### Entries that nobody touches -/

/-- The entry of a key, if there is one, ends by some instant. -/
structure Lapses (key : String) (limit : Instant) (w : World (Memory × σ)) : Prop where
  bounded : w.outside.1.Bounded
  ends : ∀ e, w.outside.1.find? key = some e → e.expiresAt ≤ limit

section Lapses

variable {l : Limiter (Memory × σ)} {store : Store (Memory × σ)} {next : Handler (Memory × σ)}
  {w after : World (Memory × σ)} {key : String} {limit : Instant} {t : Turn}

/-- A turn of no key or of another one makes the entry last no longer. -/
theorem Lapses.turn (h : Lapses key limit w) (effect : t.Effect l w after)
    (other : t.key? l ≠ some key) : Lapses key limit after where
  bounded := effect.bounded
  ends e found := h.ends e (effect.kept key other e found)

theorem Lapses.run (h : Lapses key limit w) (has : l.store = some store)
    (inMemory : CountsInMemory store) (leaves : LeavesMemory next) {turns : List Turn}
    (others : ∀ t ∈ turns, t.key? l ≠ some key) : Lapses key limit (Turn.run l next turns w) := by
  induction turns generalizing w with
  | nil => exact h
  | cons t rest ih =>
      have effect := Turn.effect has inMemory leaves h.bounded t
      exact ih (h.turn effect (others t List.mem_cons_self))
        fun t' ht' => others t' (List.mem_cons_of_mem _ ht')

/-- Once its entry has ended, a key is counted from one on again. -/
theorem Lapses.counts_one (h : Lapses key limit w) (lapsed : limit ≤ w.clock.now) {n : Nat}
    {window : Span} {m : Memory}
    (counts : Memory.Counts w.outside.1 w.clock.now key window n m) : n = 1 := by
  rw [counts.answer]
  cases live : w.outside.1.live? w.clock.now key with
  | none => rfl
  | some e =>
      obtain ⟨found, before⟩ := Memory.live?_eq_some_iff.mp live
      exact absurd before (Nat.not_lt.mpr (Nat.le_trans (h.ends e found) lapsed))

end Lapses

/-! ### Told times -/

/-- Who waits for the told seconds, or until the told second, has waited for what was
left of the window. -/
theorem lapsed_of_wait {c later : Clock} {n cap : Nat} {ttl : Span}
    (elapsed : ∃ s, later = c.advance s) :
    let win := Window.counted c n cap ttl
    c.now + Span.seconds win.retryAfter ≤ later.now ∨
        (Span.seconds win.resetAt : Int) ≤ later.wall →
      c.now + ttl ≤ later.now := by
  obtain ⟨s, rfl⟩ := elapsed
  rintro win (wait | reset)
  · exact Nat.le_trans (Nat.add_le_add_left win.ttl_le_retryAfter c.now) wait
  · have past : c.wall + ttl ≤ Span.seconds win.resetAt := (c.isLeast_resetAt ttl).1
    have shown : (Span.seconds win.resetAt : Int) ≤ c.wall + s := reset
    have enough : ttl ≤ s := Int.ofNat_le.mp (Int.le_of_add_le_add_left (Int.le_trans past shown))
    exact Nat.add_le_add_left enough c.now

/-- **A client that waits as it is told is admitted.** Whatever happened before, and
also when the store fails to tell what is left of the window, a rejected request is told
to wait for a second at least and for a window at most. When either told time has come
without another request of the key, and whatever others were counted or dropped, the
next request of the key is counted as the first and reaches the handler. -/
theorem retry_succeeds (l : Limiter (Memory × σ)) {store : Store (Memory × σ)}
    (has : l.store = some store) (inMemory : CountsInMemory store)
    (positive : ∀ r, 1 ≤ l.capFor r) {next : Handler (Memory × σ)} (leaves : LeavesMemory next)
    {capacity : Nat} {w₀ : World (Memory × σ)} (empty : w₀.outside.1 = Memory.empty capacity)
    (before : List Turn) {r : Request} {key : String} (keyed : l.keyFor r = some key)
    (rejected : ¬ l.guard.Runs r (Turn.run l next before w₀)) :
    let w := Turn.run l next before w₀
    ∃ seconds reset : Nat,
      (l.guard next r w).1.headers.getAll retryHeader = [Window.numeral seconds] ∧
      (l.guard next r w).1.headers.getAll resetHeader = [Window.numeral reset] ∧
      (1 ≤ seconds ∧ seconds ≤ max 1 (Span.ceilSeconds l.window)) ∧
      ∀ between : List Turn, (∀ t ∈ between, t.key? l ≠ some key) →
        let w' := Turn.run l next between (l.guard next r w).2
        (w.clock.now + Span.seconds seconds ≤ w'.clock.now ∨
          (Span.seconds reset : Int) ≤ w'.clock.wall) →
        ∀ r', l.keyFor r' = some key →
          (store.increment w'.clock key l.window w'.outside).1 = .ready 1 ∧ l.guard.Runs r' w' := by
  intro w
  have history : History l.window key _ w :=
    (history_empty empty l.window key).run has inMemory leaves before
  obtain ⟨n, ttl, left, counted⟩ := inMemory.counted history.bounded l key (l.capFor r)
  have past : l.capFor r < n :=
    Nat.lt_of_not_le fun within => rejected ((counted.runs_iff has keyed).mpr within)
  obtain ⟨response, clock, outside⟩ := counted.rejected has keyed past next
  obtain ⟨ttl_le, ends⟩ := counted.rest_le history.soon
  let win := Window.counted w.clock n (l.capFor r) ttl
  refine ⟨win.retryAfter, win.resetAt, ?_, ?_, ⟨win.one_le_retryAfter, ?_⟩, ?_⟩
  · rw [response]
    exact (win.getAll_tellRejected _).2.2.2
  · rw [response]
    exact (win.getAll_tellRejected _).2.2.1
  · exact Window.retryAfter_le ttl_le
  · intro between others w' waited r' keyed'
    have lapses : Lapses key (w.clock.now + ttl) (l.guard next r w).2 := by
      refine ⟨?_, ?_⟩
      · rw [outside]
        exact counted.bounded
      · rw [outside]
        exact ends
    have after := lapses.run has inMemory leaves others
    obtain ⟨-, s, elapsed⟩ := Turn.run_elapsed has inMemory leaves lapses.bounded between
    rw [clock] at elapsed
    have lapsed := lapsed_of_wait ⟨s, elapsed⟩ waited
    obtain ⟨n', ttl', left', counted'⟩ := inMemory.counted after.bounded l key (l.capFor r')
    obtain rfl : n' = 1 := after.counts_one lapsed counted'.counts
    exact ⟨counted'.answer, (counted'.runs_iff has keyed').mpr (positive r')⟩

/-- One request in ten seconds, with a store that tells nothing of windows. -/
def onePerTenUntold : Limiter (Memory × Unit) :=
  { onePerTen with store := some (withoutTtl memoryStore) }

/-- A request, and four seconds in which another one may come. -/
def fourSecondsIn : List Turn :=
  [.event (.request rootRequest), .event (.advance (Span.seconds 4))]

/-- The second request in four seconds is told to wait for a whole window, since the
store does not tell what is left of it, and the third is admitted after that. -/
theorem third_request_passes :
    let w := Turn.run onePerTenUntold plainHandler fourSecondsIn freshWorld
    let w' := Turn.run onePerTenUntold plainHandler [.event (.advance (Span.seconds 10))]
      (onePerTenUntold.guard plainHandler rootRequest w).2
    (onePerTenUntold.guard plainHandler rootRequest w).1.headers.getAll retryHeader =
        [Window.numeral 10] ∧
      (onePerTenUntold.guard plainHandler rootRequest w).1.headers.getAll resetHeader =
        [Window.numeral 14] ∧
      (memoryStore.increment w'.clock "global" (Span.seconds 10) w'.outside).1 = .ready 1 ∧
      onePerTenUntold.guard.Runs rootRequest w' := by
  have keyed : onePerTenUntold.keyFor rootRequest = some "global" := by decide
  have leaves := quiet_plainHandler.leavesMemory
  have inMemory := (countsInMemory_memoryStore (σ := Unit)).withoutTtl
  have empty : freshWorld.outside.1 = Memory.empty 1 := rfl
  have rejected : ¬ onePerTenUntold.guard.Runs rootRequest
      (Turn.run onePerTenUntold plainHandler fourSecondsIn freshWorld) := by
    intro runs
    have fresh : freshWorld.outside.1.Bounded := Memory.bounded_empty 1
    obtain ⟨bounded, -⟩ :=
      Turn.run_elapsed (l := onePerTenUntold) rfl inMemory leaves fresh fourSecondsIn
    obtain ⟨n, ttl, left, counted⟩ := inMemory.counted bounded onePerTenUntold "global" 1
    obtain rfl : n = 2 := Reply.ready.inj (counted.answer.symm.trans (by decide))
    exact absurd ((counted.runs_iff rfl keyed).mp runs) (by decide)
  obtain ⟨seconds, reset, -, -, ⟨-, short⟩, admits⟩ := retry_succeeds onePerTenUntold rfl
    inMemory (fun _ => Nat.le_refl 1) leaves empty fourSecondsIn keyed rejected
  have waited : Span.seconds 4 + Span.seconds seconds ≤ Span.seconds 14 := by
    have short : seconds ≤ 10 := Nat.le_trans short (by decide)
    show (4 * 1000000000 + seconds * 1000000000 : Nat) ≤ 14 * 1000000000
    omega
  exact ⟨by decide, by decide,
    admits [.event (.advance (Span.seconds 10))] (by decide) (.inl waited) rootRequest keyed⟩

end Gatehouse.Limit
