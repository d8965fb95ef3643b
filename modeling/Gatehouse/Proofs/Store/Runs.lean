import Gatehouse.Proofs.Store.Eviction

/-!
Runs of a memory.

Counts, reads, purges, resets and advances of the clock follow each other in any
order. Each comes with the choice of an eviction, which only a count in a full
memory looks at, so a run may choose anew every time.

* `Bounded` is kept by every operation, and none of them fails
  (`Bounded.step`, `Bounded.run`).
* `Counts` says of one count what it drops, what it keeps and what it puts.
* `full_memory_evicts_soonest` has both for the memory after any run.
-/

namespace Gatehouse.Memory

/-- What happens to a memory. -/
inductive Op where
  | increment (key : String) (window : Span)
  | count (key : String)
  | ttl (key : String)
  | purge
  | reset
  | advance (s : Span)
  deriving DecidableEq, Repr

/-- A memory, and what its clock shows. -/
structure Timed where
  now : Instant
  memory : Memory
  deriving DecidableEq, Repr

/-- The answer of an operation, if it has one, and what it leaves. -/
def Op.stepBy? (c : Choice) (s : Timed) : Op → Option (Option Nat × Timed)
  | increment key window =>
      (incrementBy? c s.memory s.now key window).map fun r => (some r.1, { s with memory := r.2 })
  | count key => some (some (s.memory.count s.now key), s)
  | ttl key => some (some (s.memory.ttl s.now key), s)
  | purge => some (none, { s with memory := s.memory.purge s.now })
  | reset => some (none, { s with memory := s.memory.reset })
  | advance d => some (none, { s with now := s.now + d })

/-- The answers of a run, and what it leaves. -/
def runBy? : List (Op × Choice) → Timed → Option (List Nat × Timed)
  | [], s => some ([], s)
  | (op, c) :: rest, s => do
      let (answer, s) ← op.stepBy? c s
      let (answers, s) ← runBy? rest s
      some (answer.toList ++ answers, s)

variable {m m' : Memory} {now : Instant} {key : String} {window : Span} {c : Choice}

/-! ### Sizes -/

theorem isFullFor_iff : m.isFullFor key = true ↔ m.find? key = none ∧ m.capacity ≤ m.size := by
  rw [isFullFor, Bool.and_eq_true, Option.isNone_iff_eq_none, decide_eq_true_iff]

theorem size_purge_le (m : Memory) (now : Instant) : (m.purge now).size ≤ m.size :=
  List.length_filter_le _ _

/-- Putting an entry takes room for it at most. -/
theorem size_put_le (m : Memory) (key : String) (e : Entry) : (m.put key e).size ≤ m.size + 1 :=
  Nat.succ_le_succ (List.length_filter_le _ _)

/-- Putting an entry in the place of another takes no room. -/
theorem size_put_le_of_find? {e : Entry} (h : m.find? key = some e) (e' : Entry) :
    (m.put key e').size ≤ m.size := by
  have there : key ∈ Assoc.keys m.entries :=
    Assoc.mem_keys.mpr (Option.isSome_iff_exists.mpr ⟨e, h⟩)
  obtain ⟨p, hp, rfl⟩ := List.mem_map.mp there
  refine Nat.succ_le_of_lt (List.length_filter_lt_length_iff_exists.mpr ⟨p, hp, ?_⟩)
  simp

/-! ### Bounded memories -/

/-- Each key stands once, and there is room for one key at least and for all that
are there. -/
structure Bounded (m : Memory) : Prop where
  wellKeyed : m.WellKeyed
  room : 1 ≤ m.capacity
  fits : m.size ≤ m.capacity

theorem bounded_empty (capacity : Nat) : (empty capacity).Bounded where
  wellKeyed := wellKeyed_empty capacity
  room := Nat.le_max_left _ _
  fits := Nat.zero_le _

theorem Bounded.purge (h : m.Bounded) (now : Instant) : (m.purge now).Bounded where
  wellKeyed := h.wellKeyed.purge now
  room := h.room
  fits := Nat.le_trans (size_purge_le m now) h.fits

theorem Bounded.reset (h : m.Bounded) : m.reset.Bounded where
  wellKeyed := List.nodup_nil
  room := h.room
  fits := Nat.zero_le _

/-- A memory that is not full for a key has room for it. -/
theorem Bounded.put (h : m.Bounded) (roomy : m.isFullFor key = false) (e : Entry) :
    (m.put key e).Bounded where
  wellKeyed := h.wellKeyed.put key e
  room := h.room
  fits := by
    cases found : m.find? key with
    | some old => exact Nat.le_trans (size_put_le_of_find? found e) h.fits
    | none =>
        have under : ¬ m.capacity ≤ m.size := by
          intro full
          rw [isFullFor_iff.mpr ⟨found, full⟩] at roomy
          cases roomy
        exact Nat.le_trans (size_put_le m key e) (Nat.lt_of_not_le under)

/-- Where room was made, there is room for one more key. -/
theorem FreesRoom.size_lt (h : FreesRoom now m m') (room : 1 ≤ m.capacity) :
    m'.size < m'.capacity := by
  have few : m'.size ≤ m.target := h.size ▸ Nat.min_le_right _ _
  rw [h.capacity]
  exact Nat.lt_of_le_of_lt few (target_lt room)

theorem FreesRoom.put_bounded (h : FreesRoom now m m') (room : 1 ≤ m.capacity) (key : String)
    (e : Entry) :
    (m'.put key e).Bounded where
  wellKeyed := h.wellKeyed.put key e
  room := by
    show 1 ≤ m'.capacity
    rw [h.capacity]
    exact room
  fits := Nat.le_trans (size_put_le m' key e) (h.size_lt room)

/-- A count in a memory that is full for its key makes room first; any other puts
the next entry and leaves no choice. Either way it does not fail. -/
theorem incrementBy?_cases (h : m.Bounded) (now : Instant) (key : String) (window : Span)
    (c : Choice) :
    (m.isFullFor key = false ∧
        incrementBy? c m now key window =
          some ((Entry.next now window (m.live? now key)).count,
            m.put key (Entry.next now window (m.live? now key)))) ∨
      (m.isFullFor key = true ∧ ∃ roomy, makeRoomBy? c m now = some roomy ∧
        FreesRoom now m roomy ∧
        incrementBy? c m now key window = some (1, roomy.put key ⟨1, now + window⟩)) := by
  cases full : m.isFullFor key with
  | false =>
      rw [incrementBy?_of_not_full full c, increment_eq_put full]
      exact .inl ⟨rfl, rfl⟩
  | true =>
      obtain ⟨roomy, made, frees⟩ := makeRoomBy?_frees h.wellKeyed h.room now c
      exact .inr ⟨rfl, roomy, made, frees, by rw [incrementBy?_of_full full, made]; rfl⟩

theorem Bounded.increment (h : m.Bounded) (now : Instant) (key : String) (window : Span)
    (c : Choice) :
    ∃ n m', incrementBy? c m now key window = some (n, m') ∧ m'.Bounded ∧
      m'.capacity = m.capacity := by
  rcases incrementBy?_cases h now key window c with ⟨roomy, counts⟩ | ⟨-, room, -, frees, counts⟩
  · exact ⟨_, _, counts, h.put roomy _, rfl⟩
  · exact ⟨_, _, counts, frees.put_bounded h.room key _, frees.capacity⟩

/-- One operation keeps a memory bounded. -/
theorem Bounded.step {s : Timed} (h : s.memory.Bounded) (op : Op) (c : Choice) :
    ∃ answer t, op.stepBy? c s = some (answer, t) ∧ t.memory.Bounded ∧
      t.memory.capacity = s.memory.capacity := by
  cases op with
  | increment key window =>
      obtain ⟨n, m', counts, bounded, capacity⟩ := h.increment s.now key window c
      exact ⟨some n, { s with memory := m' }, by simp [Op.stepBy?, counts], bounded, capacity⟩
  | count key => exact ⟨_, _, rfl, h, rfl⟩
  | ttl key => exact ⟨_, _, rfl, h, rfl⟩
  | purge => exact ⟨_, _, rfl, h.purge s.now, rfl⟩
  | reset => exact ⟨_, _, rfl, h.reset, rfl⟩
  | advance d => exact ⟨_, _, rfl, h, rfl⟩

theorem runBy?_cons {op : Op} {rest : List (Op × Choice)} {s t : Timed} {answer : Option Nat}
    (step : op.stepBy? c s = some (answer, t)) :
    runBy? ((op, c) :: rest) s = (runBy? rest t).map fun r => (answer.toList ++ r.1, r.2) := by
  simp only [runBy?, step, Option.bind_eq_bind, Option.bind_some]
  cases runBy? rest t <;> rfl

/-- A run keeps a memory bounded, and does not fail. -/
theorem Bounded.run {s : Timed} (h : s.memory.Bounded) (run : List (Op × Choice)) :
    ∃ answers t, runBy? run s = some (answers, t) ∧ t.memory.Bounded ∧
      t.memory.capacity = s.memory.capacity := by
  induction run generalizing s with
  | nil => exact ⟨[], s, rfl, h, rfl⟩
  | cons entry rest ih =>
      obtain ⟨op, c⟩ := entry
      obtain ⟨answer, t, step, bounded, capacity⟩ := h.step op c
      obtain ⟨answers, u, run, bounded', capacity'⟩ := ih bounded
      refine ⟨answer.toList ++ answers, u, ?_, bounded', capacity'.trans capacity⟩
      rw [runBy?_cons step, run]
      rfl

/-! ### What a count drops -/

/-- The live entries of a memory that are gone from another. -/
def lost (m : Memory) (now : Instant) (m' : Memory) : List (String × Entry) :=
  (m.purge now).entries.filter fun p => (m'.find? p.1).isNone

/-- What becomes of a memory when a key is counted. Only a memory that is full for
the key drops others, and then all that have ended, and the live ones beyond the
target, which end no later than those that are kept. -/
structure Counts (m : Memory) (now : Instant) (key : String) (window : Span) (n : Nat)
    (m' : Memory) : Prop where
  fits : m'.size ≤ m.capacity
  entry : m'.find? key = some (Entry.next now window (m.live? now key))
  answer : n = (Entry.next now window (m.live? now key)).count
  kept : ∀ k ≠ key, ∀ e, m'.find? k = some e → m.find? k = some e
  drops : (∃ k ≠ key, m.find? k ≠ none ∧ m'.find? k = none) →
    m.find? key = none ∧ m.size = m.capacity
  opens : m.find? key = none → m.size = m.capacity → m'.find? key = some ⟨1, now + window⟩
  ended : m.find? key = none → m.size = m.capacity →
    ∀ k ≠ key, ∀ e, m'.find? k = some e → now < e.expiresAt
  number : m.find? key = none → m.size = m.capacity →
    (m.lost now m').length = (m.purge now).size - m.target
  soonest : m.find? key = none → m.size = m.capacity →
    ∀ gone ∈ m.lost now m', ∀ k ≠ key, ∀ e, m'.find? k = some e → gone.2.expiresAt ≤ e.expiresAt

theorem counts_of_not_full (h : m.Bounded) (roomy : m.isFullFor key = false) :
    Counts m now key window (Entry.next now window (m.live? now key)).count
      (m.put key (Entry.next now window (m.live? now key))) := by
  have notFull : m.find? key = none → m.size = m.capacity → False := by
    intro absent full
    rw [isFullFor_iff.mpr ⟨absent, Nat.le_of_eq full.symm⟩] at roomy
    cases roomy
  constructor
  case fits => exact (h.put roomy _).fits
  case entry => rw [find?_put, if_pos rfl]
  case answer => rfl
  case kept =>
    intro k other e found
    rwa [find?_put, if_neg other] at found
  case drops =>
    rintro ⟨k, other, there, gone⟩
    rw [find?_put, if_neg other] at gone
    exact absurd gone there
  all_goals exact fun absent full => (notFull absent full).elim

/-- Where room was made, the live entries that are kept are all that is left. -/
theorem FreesRoom.length_kept (h : FreesRoom now m m') (wellKeyed : m.WellKeyed) :
    ((m.purge now).entries.filter fun p => !(m'.find? p.1).isNone).length = m'.size := by
  have live : ((m.purge now).entries.filter fun p => !(m'.find? p.1).isNone).Nodup :=
    ((wellKeyed.purge now).of_map _).filter _
  have same : ((m.purge now).entries.filter fun p => !(m'.find? p.1).isNone).Perm m'.entries := by
    refine (List.perm_ext_iff_of_nodup live (h.wellKeyed.of_map _)).mpr ?_
    rintro ⟨k, e⟩
    rw [List.mem_filter, mem_purge_iff wellKeyed, mem_entries_iff h.wellKeyed]
    constructor
    · rintro ⟨there, stays⟩
      obtain ⟨e', found⟩ : ∃ e', m'.find? k = some e' := by
        simpa [Option.isSome_iff_exists] using stays
      rw [h.kept k e' found] at there
      exact there ▸ found
    · intro found
      exact ⟨h.kept k e found, by simp [found]⟩
  exact same.length_eq

theorem counts_of_full (h : m.Bounded) (full : m.isFullFor key = true)
    (frees : FreesRoom now m m') :
    Counts m now key window 1 (m'.put key ⟨1, now + window⟩) := by
  obtain ⟨absent, size⟩ := isFullFor_iff.mp full
  have hidden := live?_eq_none absent now
  -- The key is none of those that are kept or dropped.
  have others : ∀ p ∈ (m.purge now).entries, p.1 ≠ key := by
    rintro ⟨k, e⟩ hp rfl
    rw [mem_purge_iff h.wellKeyed, hidden] at hp
    cases hp
  have lost : m.lost now (m'.put key ⟨1, now + window⟩) =
      (m.purge now).entries.filter fun p => (m'.find? p.1).isNone := by
    refine List.filter_congr fun p hp => ?_
    rw [find?_put, if_neg (others p hp)]
  have found : ∀ k ≠ key, ∀ e, (m'.put key ⟨1, now + window⟩).find? k = some e →
      m'.find? k = some e := by
    intro k other e hk
    rwa [find?_put, if_neg other] at hk
  constructor
  case fits =>
    have fits := (frees.put_bounded h.room key ⟨1, now + window⟩).fits
    rwa [show (m'.put key ⟨1, now + window⟩).capacity = m.capacity from frees.capacity] at fits
  case entry => rw [find?_put, if_pos rfl, hidden, Entry.next]
  case answer => rw [hidden, Entry.next]
  case kept =>
    intro k other e hk
    exact (live?_eq_some_iff.mp (frees.kept k e (found k other e hk))).1
  case drops => exact fun _ => ⟨absent, Nat.le_antisymm h.fits size⟩
  case opens => exact fun _ _ => by rw [find?_put, if_pos rfl]
  case ended =>
    intro _ _ k other e hk
    exact (live?_eq_some_iff.mp (frees.kept k e (found k other e hk))).2
  case number =>
    intro _ _
    have kept := frees.length_kept h.wellKeyed
    have split := List.length_eq_length_filter_add (l := (m.purge now).entries)
      fun p => (m'.find? p.1).isNone
    have total : (m.purge now).entries.length = (m.purge now).size := rfl
    rw [lost]
    rw [kept, total, frees.size] at split
    omega
  case soonest =>
    rintro _ _ ⟨gone, e⟩ hgone k other e' hk
    rw [lost, List.mem_filter, mem_purge_iff h.wellKeyed, Option.isNone_iff_eq_none] at hgone
    exact frees.soonest gone e k e' hgone.1 hgone.2 (found k other e' hk)

/-- A count by any choice does what a count may do, and leaves the memory bounded. -/
theorem Bounded.counts (h : m.Bounded) {n : Nat}
    (counted : incrementBy? c m now key window = some (n, m')) :
    Counts m now key window n m' ∧ m'.Bounded := by
  rcases incrementBy?_cases h now key window c with
    ⟨roomy, put⟩ | ⟨full, room, -, frees, put⟩
  · cases Option.some.inj (put.symm.trans counted)
    exact ⟨counts_of_not_full h roomy, h.put roomy _⟩
  · cases Option.some.inj (put.symm.trans counted)
    exact ⟨counts_of_full h full frees, frees.put_bounded h.room key _⟩

/-- **A memory never holds more than it has room for, and drops what ends
soonest.** After any run from an empty memory, with any choices on its way, a
count by any choice neither fails nor drops more than it should. The memory's own
way to count is by one of these choices. -/
theorem full_memory_evicts_soonest (capacity : Nat) (start : Instant) (run : List (Op × Choice)) :
    ∃ answers s, runBy? run ⟨start, empty capacity⟩ = some (answers, s) ∧
      s.memory.capacity = max 1 capacity ∧ s.memory.size ≤ max 1 capacity ∧
      ∀ key window,
        incrementBy? .sorted s.memory s.now key window =
            some (s.memory.increment s.now key window) ∧
          ∀ c, ∃ n m', incrementBy? c s.memory s.now key window = some (n, m') ∧
            Counts s.memory s.now key window n m' := by
  have start_ : (Timed.mk start (empty capacity)).memory.Bounded := bounded_empty capacity
  obtain ⟨answers, s, ran, bounded, held⟩ := start_.run run
  refine ⟨answers, s, ran, held, ?_, fun key window => ⟨?_, fun c => ?_⟩⟩
  · rw [show max 1 capacity = s.memory.capacity from held.symm]
    exact bounded.fits
  · exact incrementBy?_sorted bounded.wellKeyed bounded.room s.now key window
  · rcases incrementBy?_cases bounded s.now key window c with
      ⟨roomy, counts⟩ | ⟨full, room, -, frees, counts⟩
    · exact ⟨_, _, counts, counts_of_not_full bounded roomy⟩
    · exact ⟨_, _, counts, counts_of_full bounded full frees⟩

end Gatehouse.Memory
