import Gatehouse.Proofs.Store.Purges

/-!
How often a memory makes room.

Making room looks at every entry, which is too much work to come with every new key. It
therefore lets a whole batch go, and is not called for again before as many new keys have
come in.

What a memory holds beyond its target is its debt. A full one owes a batch, a new key adds
one to the debt, and nothing else does; making room for a key leaves one at most. So every
time that room is made is paid for by a batch of new keys, up to the debt that a run begins
with.

* `Bounded.settles` is the account of one operation, `Course.settles` that of a run.
* `eviction_is_amortized` counts the new keys between two times that room is made, and the
  times that room is made in any stretch of a run.
-/

namespace Gatehouse.Memory

/-! ### Courses of runs -/

/-- The course of a run by some choices: its operations, each with the memory that it meets. -/
inductive Course : Timed → List (Op × Timed) → Timed → Prop where
  | nil {s : Timed} : Course s [] s
  | cons {op : Op} {c : Choice} {s t u : Timed} {answer : Option Nat}
      {visits : List (Op × Timed)} : op.stepBy? c s = some (answer, t) → Course t visits u →
      Course s ((op, s) :: visits) u

/-- The operation counts a key that is not there, and there is no room for one more. -/
def Op.makesRoom (s : Timed) (op : Op) : Bool :=
  op.counted?.any fun key => s.memory.isFullFor key

/-- The operation counts a key that is not there, neither live nor ended. -/
def Op.enters (s : Timed) (op : Op) : Bool :=
  op.counted?.any fun key => (s.memory.find? key).isNone

/-- How often room is made. -/
def scans (visits : List (Op × Timed)) : Nat :=
  visits.countP fun visit => visit.1.makesRoom visit.2

/-- How many keys come in. -/
def newcomers (visits : List (Op × Timed)) : Nat :=
  visits.countP fun visit => visit.1.enters visit.2

/-- What a memory holds beyond its target. -/
def debt (m : Memory) : Nat :=
  m.size - m.target

variable {m m' : Memory} {now : Instant} {key : String} {window : Span} {c : Choice}
  {s t u : Timed} {op : Op} {answer : Option Nat} {visits first second : List (Op × Timed)}

theorem scans_cons (visit : Op × Timed) (visits : List (Op × Timed)) :
    scans (visit :: visits) = (visit.1.makesRoom visit.2).toNat + scans visits := by
  rw [scans, List.countP_cons, Nat.add_comm, scans]
  cases visit.1.makesRoom visit.2 <;> rfl

theorem newcomers_cons (visit : Op × Timed) (visits : List (Op × Timed)) :
    newcomers (visit :: visits) = (visit.1.enters visit.2).toNat + newcomers visits := by
  rw [newcomers, List.countP_cons, Nat.add_comm, newcomers]
  cases visit.1.enters visit.2 <;> rfl

theorem Course.append_iff :
    Course s (first ++ second) u ↔ ∃ t, Course s first t ∧ Course t second u := by
  induction first generalizing s with
  | nil =>
      constructor
      · intro course
        exact ⟨s, .nil, course⟩
      · rintro ⟨_, ⟨⟩, course⟩
        exact course
  | cons visit rest ih =>
      constructor
      · rintro (_ | ⟨step, later⟩)
        obtain ⟨t, course, behind⟩ := ih.mp later
        exact ⟨t, .cons step course, behind⟩
      · rintro ⟨t, _ | ⟨step, course⟩, behind⟩
        exact .cons step (ih.mpr ⟨t, course, behind⟩)

/-- The first operation meets the memory that the run begins with. -/
theorem Course.head_eq {visit : Op × Timed} (course : Course s (visit :: visits) u) :
    visit.2 = s := by
  cases course
  rfl

/-- A run takes a course. -/
theorem Course.of_runBy? {run : List (Op × Choice)} {answers : List Nat}
    (ran : runBy? run s = some (answers, t)) :
    ∃ visits, Course s visits t ∧ visits.map Prod.fst = run.map Prod.fst := by
  induction run generalizing s answers with
  | nil =>
      cases ran
      exact ⟨[], .nil, rfl⟩
  | cons entry rest ih =>
      obtain ⟨op, c⟩ := entry
      cases step : op.stepBy? c s with
      | none => simp [runBy?, step] at ran
      | some r =>
          obtain ⟨answer, u⟩ := r
          rw [runBy?_cons step, Option.map_eq_some_iff] at ran
          obtain ⟨⟨_, _⟩, ran, same⟩ := ran
          cases same
          obtain ⟨visits, course, ops⟩ := ih ran
          exact ⟨(op, s) :: visits, .cons step course, by rw [List.map_cons, ops, List.map_cons]⟩

/-- Room is made for a key that is not there when no place is free. -/
theorem Op.makesRoom_iff : op.makesRoom s = true ↔
    ∃ key window, op = .increment key window ∧ s.memory.find? key = none ∧
      s.memory.capacity ≤ s.memory.size := by
  cases op with
  | increment key window =>
      constructor
      · intro full
        obtain ⟨absent, size⟩ := isFullFor_iff.mp full
        exact ⟨key, window, rfl, absent, size⟩
      · rintro ⟨_, _, ⟨⟩, absent, size⟩
        exact isFullFor_iff.mpr ⟨absent, size⟩
  | count _ | ttl _ | purge | reset | advance _ =>
      constructor
      · intro no
        cases no
      · rintro ⟨_, _, ⟨⟩, _⟩

/-! ### Debts -/

theorem debt_le_of_size_le (fewer : m'.size ≤ m.size) (capacity : m'.capacity = m.capacity) :
    m'.debt ≤ m.debt := by
  rw [debt, debt, target, target, capacity]
  exact Nat.sub_le_sub_right fewer _

theorem Bounded.debt_le (h : m.Bounded) : m.debt ≤ batch m.capacity := by
  have fits := h.fits
  rw [debt, target]
  omega

/-- A full memory owes a batch. -/
theorem Bounded.debt_eq (h : m.Bounded) (full : m.capacity ≤ m.size) :
    m.debt = batch m.capacity := by
  have fits := h.fits
  have within := batch_le h.room
  rw [debt, target]
  omega

/-- Where room was made for a key, the memory owes for no more than that key. -/
theorem FreesRoom.debt_put_le (h : FreesRoom now m m') (key : String) (e : Entry) :
    (m'.put key e).debt ≤ 1 := by
  have few : m'.size ≤ m.target := h.size ▸ Nat.min_le_right _ _
  have put := size_put_le m' key e
  have target : (m'.put key e).target = m.target := by
    show m'.target = m.target
    rw [Memory.target, Memory.target, h.capacity]
  rw [debt, target]
  omega

/-- What a new key adds, and one that is there does not. -/
theorem debt_put_le (m : Memory) (key : String) (e : Entry) :
    (m.put key e).debt ≤ (m.find? key).isNone.toNat + m.debt := by
  cases found : m.find? key with
  | some old =>
      have same : (m.put key e).debt ≤ m.debt :=
        debt_le_of_size_le (size_put_le_of_find? found e) rfl
      rwa [Option.isNone_some, Bool.toNat_false, Nat.zero_add]
  | none =>
      have put := size_put_le m key e
      have target : (m.put key e).target = m.target := rfl
      rw [debt, debt, target, Option.isNone_none, Bool.toNat_true]
      omega

/-- A count that makes room pays a batch with what the memory owes, and the key that comes
in is owed for afterwards. -/
theorem Bounded.settles_increment (h : m.Bounded) {n : Nat}
    (counts : incrementBy? c m now key window = some (n, m')) :
    (m.isFullFor key).toNat * batch m.capacity + m'.debt ≤
      (m.find? key).isNone.toNat + m.debt := by
  rcases incrementBy?_cases h now key window c with
    ⟨roomy, put⟩ | ⟨full, room, -, frees, put⟩
  · cases Option.some.inj (put.symm.trans counts)
    rw [roomy, Bool.toNat_false, Nat.zero_mul, Nat.zero_add]
    exact debt_put_le m key _
  · cases Option.some.inj (put.symm.trans counts)
    obtain ⟨absent, size⟩ := isFullFor_iff.mp full
    have owed := frees.debt_put_le key ⟨1, now + window⟩
    rw [full, absent, h.debt_eq size, Bool.toNat_true, Nat.one_mul, Option.isNone_none,
      Bool.toNat_true]
    omega

/-- **What one operation costs.** A batch is paid where room is made, and only a key that
comes in is owed for. -/
theorem Bounded.settles (h : s.memory.Bounded) (step : op.stepBy? c s = some (answer, t)) :
    (op.makesRoom s).toNat * batch s.memory.capacity + t.memory.debt ≤
      (op.enters s).toNat + s.memory.debt := by
  have free {d : Nat} (less : d ≤ s.memory.debt) :
      false.toNat * batch s.memory.capacity + d ≤ false.toNat + s.memory.debt := by
    simpa using less
  cases op with
  | increment key window =>
      obtain ⟨⟨n, m⟩, counts, same⟩ := Option.map_eq_some_iff.mp step
      cases same
      exact h.settles_increment counts
  -- No key comes in and no room is made, so nothing is paid and nothing is owed for.
  | count key | ttl key | advance d =>
      cases step
      exact free (Nat.le_refl _)
  | purge =>
      cases step
      exact free (debt_le_of_size_le (size_purge_le _ _) rfl)
  | reset =>
      cases step
      have emptied : s.memory.reset.size ≤ s.memory.size := Nat.zero_le _
      exact free (debt_le_of_size_le emptied rfl)

/-- **What a run costs.** -/
theorem Course.settles (course : Course s visits u) (h : s.memory.Bounded) :
    scans visits * batch s.memory.capacity + u.memory.debt ≤ newcomers visits + s.memory.debt ∧
      u.memory.Bounded ∧ u.memory.capacity = s.memory.capacity := by
  induction course with
  | nil => exact ⟨Nat.le_of_eq (by simp [scans, newcomers]), h, rfl⟩
  | @cons op c s t u answer visits step _ ih =>
      obtain ⟨_, _, step', bounded, capacity⟩ := h.step op c
      cases step'.symm.trans step
      obtain ⟨later, last, same⟩ := ih bounded
      have now := h.settles step
      refine ⟨?_, last, same.trans capacity⟩
      rw [capacity] at later
      rw [scans_cons, newcomers_cons, Nat.add_mul]
      dsimp only
      omega

/-- A run that begins by making room begins with a full memory. -/
theorem Course.debt_eq {visit : Op × Timed} (course : Course s (visit :: visits) u)
    (h : s.memory.Bounded) (room : visit.1.makesRoom visit.2 = true) :
    s.memory.debt = batch s.memory.capacity := by
  rw [course.head_eq, Op.makesRoom_iff] at room
  obtain ⟨_, _, _, _, full⟩ := room
  exact h.debt_eq full

/-- A stretch of a run begins with a memory like the first one. -/
theorem Course.stretch {before stretch behind : List (Op × Timed)}
    (course : Course ⟨now, m⟩ (before ++ stretch ++ behind) u) (h : m.Bounded) :
    ∃ t v, Course t stretch v ∧ Course v behind u ∧ t.memory.Bounded ∧
      batch t.memory.capacity = batch m.capacity := by
  obtain ⟨v, course, later⟩ := Course.append_iff.mp course
  obtain ⟨t, course, stretch⟩ := Course.append_iff.mp course
  obtain ⟨-, full, held⟩ := course.settles h
  exact ⟨t, v, stretch, later, full, congrArg batch held⟩

theorem batch_empty (capacity : Nat) : batch (empty capacity).capacity = max 1 (capacity / 10) := by
  show max 1 (max 1 capacity / 10) = max 1 (capacity / 10)
  omega

/-- **Room is made rarely.** From one time that room is made in a run up to the next, at least a
batch of keys comes in, the first of them included; so room is made in any stretch of a run, and
in all of it, once at most beside once for each batch of keys that comes in. There is no end of
such runs: no operation fails on its way. -/
theorem eviction_is_amortized (capacity : Nat) (start : Instant) {visits : List (Op × Timed)}
    {s : Timed} (course : Course ⟨start, empty capacity⟩ visits s) :
    (∀ before one between next behind, visits = before ++ one :: between ++ next :: behind →
        one.1.makesRoom one.2 = true → next.1.makesRoom next.2 = true →
        max 1 (capacity / 10) ≤ newcomers (one :: between)) ∧
      (∀ stretch, stretch <:+: visits →
        scans stretch ≤ 1 + newcomers stretch / max 1 (capacity / 10)) ∧
      ∀ (op : Op) (c : Choice), ∃ answer t, op.stepBy? c s = some (answer, t) := by
  have bounded : (empty capacity).Bounded := bounded_empty capacity
  rw [← batch_empty capacity]
  refine ⟨?_, ?_, ?_⟩
  · rintro before one between next behind rfl room again
    obtain ⟨t, u, meanwhile, behind, full, held⟩ := course.stretch bounded
    obtain ⟨paid, full', held'⟩ := meanwhile.settles full
    have owed := meanwhile.debt_eq full room
    have owed' := behind.debt_eq full' again
    rw [owed, owed', held', held, scans_cons, room, Bool.toNat_true, Nat.add_mul] at paid
    omega
  · rintro stretch ⟨before, behind, rfl⟩
    obtain ⟨t, u, stretch, -, full, held⟩ := course.stretch bounded
    obtain ⟨paid, -⟩ := stretch.settles full
    have owed := full.debt_le
    rw [held] at paid owed
    have one : 0 < batch (empty capacity).capacity := Nat.le_max_left _ _
    refine Nat.sub_le_iff_le_add'.mp ((Nat.le_div_iff_mul_le one).mpr ?_)
    rw [Nat.sub_mul, Nat.one_mul]
    omega
  · intro op c
    obtain ⟨-, full, -⟩ := course.settles bounded
    obtain ⟨answer, t, step, -⟩ := full.step op c
    exact ⟨answer, t, step⟩

/-- A key is counted for a minute. -/
def minuteOf (key : String) : Op :=
  .increment key (Span.seconds 60)

/-- A key came in for a minute, and nothing had to go. -/
def Timed.joinedBy (s : Timed) (key : String) : Timed :=
  { s with memory := s.memory.put key ⟨1, s.now + Span.seconds 60⟩ }

/-- What is live of twenty keys a minute after they came in. -/
def thinned : Timed :=
  ⟨Span.seconds 60, crowded.memory.purge (Span.seconds 60)⟩

/-- A minute after twenty keys came in, two of them have ended, and one that is new makes room for
itself and for another one. The third has to make room again. -/
theorem third_key_makes_room_again :
    ∃ before one between next s,
      Course ⟨0, empty 20⟩ (before ++ one :: between ++ next :: []) s ∧
        one.1.makesRoom one.2 = true ∧ next.1.makesRoom next.2 = true ∧
        max 1 (20 / 10) ≤ newcomers (one :: between) := by
  obtain ⟨before, filled, -⟩ := Course.of_runBy? runBy?_twentyKeys
  have waits : Op.stepBy? .sorted crowded (.advance (Span.seconds 58)) =
      some (none, ⟨Span.seconds 60, crowded.memory⟩) := by rfl
  have first : (minuteOf "a").stepBy? .sorted ⟨Span.seconds 60, crowded.memory⟩ =
      some (some 1, thinned.joinedBy "a") := by rfl
  have second : (minuteOf "b").stepBy? .sorted (thinned.joinedBy "a") =
      some (some 1, (thinned.joinedBy "a").joinedBy "b") := by rfl
  have room : (minuteOf "a").makesRoom ⟨Span.seconds 60, crowded.memory⟩ = true := by rfl
  have again : (minuteOf "c").makesRoom ((thinned.joinedBy "a").joinedBy "b") = true := by rfl
  have waited := Course.append_iff.mpr ⟨crowded, filled, .cons waits .nil⟩
  have joined := Course.append_iff.mpr ⟨_, waited, .cons first (.cons second .nil)⟩
  obtain ⟨answer, last, third⟩ := (eviction_is_amortized 20 0 joined).2.2 (minuteOf "c") .sorted
  have course := Course.append_iff.mpr ⟨_, joined, .cons third .nil⟩
  have between := (eviction_is_amortized 20 0 course).1 _ _ _ _ _ rfl room again
  exact ⟨_, _, _, _, last, course, room, again, between⟩

end Gatehouse.Memory
