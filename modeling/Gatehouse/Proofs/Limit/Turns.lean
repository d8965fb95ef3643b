import Gatehouse.Proofs.Limit.FixedWindow
import Gatehouse.Proofs.Store.Runs

/-!
A limiter over a memory that may be full.

Here the memory has as little room as it likes, so counts of other keys may drop the
entry of a key at any time, by any choice (`CountsInMemory`). The store always counts,
but it may fail to tell what is left of a window.

* `CountsInMemory.counted`: what a counted request finds and leaves (`Counted`).
* `Turn.effect`: what requests, advances of the clock, purges and resets do to the
  entries of each key.
-/

namespace Gatehouse.Limit

open Http

variable {σ : Type}

/-! ### Stores -/

/-- The store keeps its counters in the memory. A count is always answered and is the
memory's own, by some choice of what to drop; the rest of a window is the memory's when
it is answered. Whatever else there is may change with every call. -/
structure CountsInMemory (store : Store (Memory × σ)) : Prop where
  increment : ∀ clock key window s, s.1.Bounded → ∃ c n,
    Memory.incrementBy? c s.1 clock.now key window =
        some (n, (store.increment clock key window s).2.1) ∧
      (store.increment clock key window s).1 = .ready n
  ttl_memory : ∀ clock key s, (store.ttl clock key s).2.1 = s.1
  ttl_ready : ∀ clock key s rest, (store.ttl clock key s).1 = .ready rest →
    rest = s.1.ttl clock.now key

theorem countsInMemory_memoryStore : CountsInMemory (memoryStore : Store (Memory × σ)) where
  increment clock key window s h :=
    ⟨.sorted, _, Memory.incrementBy?_sorted h.wellKeyed h.room clock.now key window, rfl⟩
  ttl_memory _ _ _ := rfl
  ttl_ready clock key s rest answered := by
    cases answered
    rfl

/-- A store that never tells what is left of a window. -/
def withoutTtl (store : Store (Memory × σ)) : Store (Memory × σ) :=
  { store with ttl := fun _ _ s => (.stalled, s) }

theorem CountsInMemory.withoutTtl {store : Store (Memory × σ)} (h : CountsInMemory store) :
    CountsInMemory (withoutTtl store) where
  increment := h.increment
  ttl_memory _ _ _ := rfl
  ttl_ready _ _ _ _ answered := nomatch answered

/-! ### Counted requests -/

/-- What a counted request finds and leaves: its count, the rest of the window that it
is told, and the memory afterwards. -/
structure Counted (l : Limiter (Memory × σ)) (store : Store (Memory × σ)) (key : String) (cap : Nat)
    (w : World (Memory × σ)) (n : Nat) (ttl : Span) (left : Memory × σ) : Prop where
  answer : (store.increment w.clock key l.window w.outside).1 = .ready n
  counts : Memory.Counts w.outside.1 w.clock.now key l.window n left.1
  bounded : left.1.Bounded
  rest : ttl = left.1.ttl w.clock.now key ∨ ttl = l.window
  checked : check store l.deadline key cap l.window w =
    (.ok (Window.counted w.clock n cap ttl), { w with outside := left })

section Counted

variable {l : Limiter (Memory × σ)} {store : Store (Memory × σ)} {next : Handler (Memory × σ)}
  {w : World (Memory × σ)} {key : String} {r : Request} {cap n : Nat} {ttl : Span}
  {left : Memory × σ}

theorem CountsInMemory.counted (h : CountsInMemory store) (bounded : w.outside.1.Bounded)
    (l : Limiter (Memory × σ)) (key : String) (cap : Nat) :
    ∃ n ttl left, Counted l store key cap w n ttl left := by
  obtain ⟨c, n, put, answer⟩ := h.increment w.clock key l.window w.outside bounded
  obtain ⟨counts, after⟩ := bounded.counts put
  have memory := h.ttl_memory w.clock key (store.increment w.clock key l.window w.outside).2
  rw [← memory] at counts after
  cases told : (store.ttl w.clock key (store.increment w.clock key l.window w.outside).2).1 with
  | ready rest =>
      have ready := h.ttl_ready _ _ _ rest told
      rw [← memory] at ready
      refine ⟨n, rest, _, answer, counts, after, .inl ready, ?_⟩
      simp [check, answer, Store.settle, told]
  | failed reason =>
      refine ⟨n, l.window, _, answer, counts, after, .inr rfl, ?_⟩
      simp [check, answer, Store.settle, told]
  | stalled =>
      refine ⟨n, l.window, _, answer, counts, after, .inr rfl, ?_⟩
      simp [check, answer, Store.settle, told]

/-- What a counted request is told to be left of its window is a window at most, and
its entry ends by then. -/
theorem Counted.rest_le (h : Counted l store key cap w n ttl left)
    (soon : ∀ e, w.outside.1.find? key = some e → e.expiresAt ≤ w.clock.now + l.window) :
    ttl ≤ l.window ∧ ∀ e, left.1.find? key = some e → e.expiresAt ≤ w.clock.now + ttl := by
  have soon' : ∀ e, left.1.find? key = some e → e.expiresAt ≤ w.clock.now + l.window := by
    rw [h.counts.entry]
    rintro _ ⟨⟩
    exact Memory.expiresAt_next_le soon
  rcases h.rest with rfl | rfl
  · exact ⟨Memory.ttl_le soon', fun e found => Memory.expiresAt_le_add_ttl found⟩
  · exact ⟨Nat.le_refl _, soon'⟩

/-- A counted request reaches the handler when its count is within the cap. -/
theorem Counted.runs_iff (h : Counted l store key (l.capFor r) w n ttl left)
    (has : l.store = some store) (keyed : l.keyFor r = some key) :
    l.guard.Runs r w ↔ n ≤ l.capFor r := by
  rw [l.guard_runs_iff r w has keyed]
  exact l.gate_runs_iff r w h.checked

/-- A counted request past the cap is rejected at once. -/
theorem Counted.rejected (h : Counted l store key (l.capFor r) w n ttl left)
    (has : l.store = some store) (keyed : l.keyFor r = some key) (past : l.capFor r < n)
    (next : Handler (Memory × σ)) :
    (l.guard next r w).1 = l.reject r (Window.counted w.clock n (l.capFor r) ttl) ∧
      (l.guard next r w).2.clock = w.clock ∧ (l.guard next r w).2.outside = left := by
  rw [l.guard_of_counted r w has keyed, l.gate_of_past r w h.checked past]
  by_cases hm : l.metered <;> simp [hm]

/-- Whatever becomes of a counted request, the memory is left as it was counted. -/
theorem Counted.leaves (h : Counted l store key (l.capFor r) w n ttl left)
    (has : l.store = some store) (keyed : l.keyFor r = some key) (leaves : LeavesMemory next) :
    (l.guard next r w).2.outside.1 = left.1 ∧
      ∃ s, (l.guard next r w).2.clock = w.clock.advance s := by
  by_cases within : n ≤ l.capFor r
  · rw [l.guard_of_counted r w has keyed, l.gate_of_within r w h.checked within]
    exact ⟨leaves.memory .., leaves.clock ..⟩
  · obtain ⟨-, clock, outside⟩ := h.rejected has keyed (Nat.lt_of_not_le within) next
    exact ⟨congrArg Prod.fst outside, 0, by rw [clock, advance_zero]⟩

end Counted

/-! ### Turns -/

/-- What happens around a limiter whose memory may be reset. -/
inductive Turn where
  | event (e : Event)
  | reset

namespace Turn

/-- The key that a turn is counted against. -/
def key? (l : Limiter (Memory × σ)) : Turn → Option String
  | event e => e.key? l
  | reset => none

def apply (l : Limiter (Memory × σ)) (next : Handler (Memory × σ)) (w : World (Memory × σ)) :
    Turn → World (Memory × σ)
  | event e => e.apply l next w
  | reset => { w with outside := (w.outside.1.reset, w.outside.2) }

def run (l : Limiter (Memory × σ)) (next : Handler (Memory × σ)) (turns : List Turn)
    (w : World (Memory × σ)) : World (Memory × σ) :=
  turns.foldl (apply l next) w

/-- What a turn does: time may pass, its key is counted, and what is left of the other
keys was there before. -/
structure Effect (l : Limiter (Memory × σ)) (t : Turn) (w after : World (Memory × σ)) : Prop where
  bounded : after.outside.1.Bounded
  elapsed : ∃ s, after.clock = w.clock.advance s
  counts : ∀ key, t.key? l = some key →
    ∃ n, Memory.Counts w.outside.1 w.clock.now key l.window n after.outside.1
  kept : ∀ key, t.key? l ≠ some key →
    ∀ e, after.outside.1.find? key = some e → w.outside.1.find? key = some e

section Effect

variable {l : Limiter (Memory × σ)} {store : Store (Memory × σ)} {next : Handler (Memory × σ)}
  {w : World (Memory × σ)}

/-- **The effect of a turn**, on a limiter that counts in a memory. -/
theorem effect (has : l.store = some store) (inMemory : CountsInMemory store)
    (leaves : LeavesMemory next) (bounded : w.outside.1.Bounded) (t : Turn) :
    t.Effect l w (t.apply l next w) := by
  have still : ∃ s, w.clock = w.clock.advance s := ⟨0, (advance_zero w.clock).symm⟩
  cases t with
  | reset =>
      refine ⟨bounded.reset, still, fun _ mine => ?_, fun _ _ _ found => ?_⟩
      · cases mine
      · cases found
  | event e =>
      cases e with
      | advance s =>
          refine ⟨bounded, ⟨s, rfl⟩, fun _ mine => ?_, fun _ _ _ found => found⟩
          cases mine
      | purge =>
          refine ⟨bounded.purge _, still, fun _ mine => ?_, fun key _ e found => ?_⟩
          · cases mine
          · have live := (Memory.find?_purge bounded.wellKeyed w.clock.now key).symm.trans found
            exact (Memory.live?_eq_some_iff.mp live).1
      | request r =>
          show Effect l (event (.request r)) w (l.guard next r w).2
          cases keyed : l.keyFor r with
          | none =>
              have passes := l.guard_of_uncounted r w (.inr keyed) next
              rw [passes]
              have memory := leaves.memory r w
              refine ⟨memory ▸ bounded, leaves.clock r w, fun key mine => ?_,
                fun key _ e found => ?_⟩
              · exact absurd (keyed.symm.trans mine) (by simp)
              · rwa [memory] at found
          | some key =>
              obtain ⟨n, ttl, left, counted⟩ := inMemory.counted bounded l key (l.capFor r)
              obtain ⟨memory, elapsed⟩ := counted.leaves has keyed leaves
              refine ⟨memory ▸ counted.bounded, elapsed, fun k mine => ?_,
                fun k other e found => ?_⟩
              · obtain rfl : key = k := Option.some.inj (keyed.symm.trans mine)
                exact ⟨n, memory ▸ counted.counts⟩
              · rw [memory] at found
                have ne : k ≠ key := fun same => other (same ▸ keyed)
                exact counted.counts.kept k ne e found

theorem run_elapsed (has : l.store = some store) (inMemory : CountsInMemory store)
    (leaves : LeavesMemory next) (bounded : w.outside.1.Bounded) (turns : List Turn) :
    (run l next turns w).outside.1.Bounded ∧
      ∃ s, (run l next turns w).clock = w.clock.advance s := by
  induction turns generalizing w with
  | nil => exact ⟨bounded, 0, (advance_zero w.clock).symm⟩
  | cons t rest ih =>
      have effect := effect has inMemory leaves bounded t
      obtain ⟨s, elapsed⟩ := effect.elapsed
      obtain ⟨after, s', elapsed'⟩ := ih effect.bounded
      refine ⟨after, s + s', ?_⟩
      rw [← advance_advance, ← elapsed]
      exact elapsed'

end Effect

end Turn

end Gatehouse.Limit
