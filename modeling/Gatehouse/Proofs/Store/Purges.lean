import Gatehouse.Proofs.Store.Runs
import Gatehouse.Text.Decimal

/-!
Whether a purge can be seen.

Reads look at live entries only, so a purge changes no read. It can change what a
later count drops: ended entries take up room, and a memory that they fill makes
room for a whole batch, which may cost live entries that a purged memory would
have kept. That takes a count in a memory that is full, that holds an ended entry,
and that has more live ones than its target (`Cramped`). Where no such count
occurs, purges go unseen, up to which of several entries goes that end together.

* `Alike.step` carries on two runs of which one is purged and one is not.
* `purges_go_unseen` is the account of two runs that differ in purges only.
* `purge_spares_a_live_key` has two runs that do not answer alike.
-/

namespace Gatehouse.Memory

/-! ### Runs that differ in purges -/

/-- What the counts and reads of a run may answer, by some choices on its way. -/
inductive Yields : List Op → Timed → List Nat → Prop where
  | nil {s : Timed} : Yields [] s []
  | cons {op : Op} {rest : List Op} {c : Choice} {s t : Timed} {answer : Option Nat}
      {answers : List Nat} : op.stepBy? c s = some (answer, t) → Yields rest t answers →
      Yields (op :: rest) s (answer.toList ++ answers)

/-- Two runs are the same but for their purges. -/
inductive UpToPurges : List Op → List Op → Prop where
  | nil : UpToPurges [] []
  | both {ops ops' : List Op} (op : Op) : UpToPurges ops ops' → UpToPurges (op :: ops) (op :: ops')
  | left {ops ops' : List Op} : UpToPurges ops ops' → UpToPurges (.purge :: ops) ops'
  | right {ops ops' : List Op} : UpToPurges ops ops' → UpToPurges ops (.purge :: ops')

/-- A count of the key makes room, an ended entry is there, and there are more
live ones than are kept. -/
def Cramped (m : Memory) (now : Instant) (key : String) : Prop :=
  m.isFullFor key = true ∧ m.target < (m.purge now).size ∧ (m.purge now).size < m.size

instance (m : Memory) (now : Instant) (key : String) : Decidable (m.Cramped now key) :=
  inferInstanceAs (Decidable (_ ∧ _ ∧ _))

/-- The key that an operation counts. -/
def Op.counted? : Op → Option String
  | increment key _ => some key
  | count _ | ttl _ | purge | reset | advance _ => none

/-- The operation counts a key for which the memory is cramped. -/
def Op.Crowds (s : Timed) (op : Op) : Prop :=
  ∃ key window, op = .increment key window ∧ s.memory.Cramped s.now key

/-- No count of the run finds the memory cramped, whatever the choices. -/
def Calm : List Op → Timed → Prop
  | [], _ => True
  | op :: rest, s =>
      ¬ op.Crowds s ∧ ∀ c answer t, op.stepBy? c s = some (answer, t) → Calm rest t

/-- Two bounded memories of one capacity show the same live entries. -/
structure Alike (s t : Timed) : Prop where
  now : s.now = t.now
  capacity : s.memory.capacity = t.memory.capacity
  left : s.memory.Bounded
  right : t.memory.Bounded
  live : ∀ key, s.memory.live? s.now key = t.memory.live? t.now key

variable {m m' : Memory} {now : Instant} {key : String} {window : Span} {c c' : Choice}
  {s t s' : Timed} {ops ops' : List Op} {answers : List Nat}

theorem Yields.of_runBy? {run : List (Op × Choice)} (h : runBy? run s = some (answers, t)) :
    Yields (run.map Prod.fst) s answers := by
  induction run generalizing s answers with
  | nil =>
      cases h
      exact .nil
  | cons entry rest ih =>
      obtain ⟨op, c⟩ := entry
      cases step : op.stepBy? c s with
      | none => simp [runBy?, step] at h
      | some r =>
          obtain ⟨answer, u⟩ := r
          rw [runBy?_cons step, Option.map_eq_some_iff] at h
          obtain ⟨⟨answers', t'⟩, ran, same⟩ := h
          cases same
          exact .cons step (ih ran)

theorem UpToPurges.symm (h : UpToPurges ops ops') : UpToPurges ops' ops := by
  induction h with
  | nil => exact .nil
  | both op _ ih => exact .both op ih
  | left _ ih => exact .right ih
  | right _ ih => exact .left ih

theorem UpToPurges.refl (ops : List Op) : UpToPurges ops ops := by
  induction ops with
  | nil => exact .nil
  | cons op _ ih => exact .both op ih

theorem UpToPurges.append_left (first : List Op) (h : UpToPurges ops ops') :
    UpToPurges (first ++ ops) (first ++ ops') := by
  induction first with
  | nil => exact h
  | cons op _ ih => exact .both op ih

theorem Alike.symm (h : Alike s t) : Alike t s where
  now := h.now.symm
  capacity := h.capacity.symm
  left := h.right
  right := h.left
  live key := (h.live key).symm

theorem Alike.refl (h : s.memory.Bounded) : Alike s s where
  now := rfl
  capacity := rfl
  left := h
  right := h
  live _ := rfl

/-! ### What stays alike -/

theorem Alike.purge (h : Alike s t) :
    Alike { s with memory := s.memory.purge s.now } t where
  now := h.now
  capacity := h.capacity
  left := h.left.purge s.now
  right := h.right
  live key := (live?_purge h.left.wellKeyed s.now key).trans (h.live key)

theorem Alike.reset (h : Alike s t) :
    Alike { s with memory := s.memory.reset } { t with memory := t.memory.reset } where
  now := h.now
  capacity := h.capacity
  left := h.left.reset
  right := h.right.reset
  live _ := rfl

theorem Alike.advance (h : Alike s t) (d : Span) :
    Alike { s with now := s.now + d } { t with now := t.now + d } where
  now := congrArg (· + d) h.now
  capacity := h.capacity
  left := h.left
  right := h.right
  live key := by
    show s.memory.live? (s.now + d) key = t.memory.live? (t.now + d) key
    rw [live?_add, live?_add, h.live key, h.now]

/-- Two alike memories have the same live entries, in some order. -/
theorem Alike.perm_purge (h : Alike s t) :
    (s.memory.purge s.now).entries.Perm (t.memory.purge t.now).entries := by
  refine (List.perm_ext_iff_of_nodup ((h.left.wellKeyed.purge s.now).of_map _)
    ((h.right.wellKeyed.purge t.now).of_map _)).mpr ?_
  rintro ⟨key, e⟩
  rw [mem_purge_iff h.left.wellKeyed, mem_purge_iff h.right.wellKeyed, h.live key]

/-! ### Counts -/

/-- Nothing but live entries, and no room. -/
def Packed (m : Memory) (now : Instant) : Prop :=
  (m.purge now).size = m.capacity

theorem Packed.isFullFor (h : m.Packed now) (bounded : m.Bounded)
    (absent : m.live? now key = none) : m.isFullFor key = true := by
  have sizes := size_purge_le m now
  have all : (m.purge now).entries = m.entries := by
    refine List.filter_eq_self.mpr (List.length_filter_eq_length_iff.mp ?_)
    show (m.purge now).size = m.size
    exact Nat.le_antisymm sizes (h ▸ bounded.fits)
  refine isFullFor_iff.mpr ⟨?_, h ▸ sizes⟩
  rw [← absent, ← find?_purge bounded.wellKeyed now, find?, find?, all]

theorem Alike.packed (h : Alike s t) (packed : s.memory.Packed s.now) :
    t.memory.Packed t.now := by
  show (t.memory.purge t.now).size = t.memory.capacity
  rw [← h.capacity, ← packed]
  exact h.perm_purge.length_eq.symm

/-- The choice that lists some entries as another choice lists them in another order. -/
def Choice.relisted (c : Choice) {es es' : List (String × Entry)} (perm : es.Perm es') : Choice :=
  { c with
    listed := fun l => if l = es' then c.listed es else l
    perm_listed := by
      intro l
      by_cases same : l = es'
      · rw [if_pos same, same]
        exact (c.perm_listed es).trans perm
      · rw [if_neg same] }

/-- What one choice evicts from a list, another evicts from the same entries in
another order. -/
theorem evictBy?_relisted (perm : m.entries.Perm m'.entries) (capacity : m.capacity = m'.capacity)
    (target : Nat) (c : Choice) :
    evictBy? (c.relisted perm) target m' = evictBy? c target m := by
  have listed : (c.relisted perm).listed m'.entries = c.listed m.entries := if_pos rfl
  have size : m'.size = m.size := perm.length_eq.symm
  have select : (c.relisted perm).select = c.select := rfl
  simp only [evictBy?, size, listed, select, capacity]

/-- Where all entries are live, what one of two alike memories keeps, the other
keeps by some choice. -/
theorem Alike.makeRoom (h : Alike s t) (packed : s.memory.Packed s.now) {roomy : Memory}
    (made : makeRoomBy? c s.memory s.now = some roomy) :
    ∃ c', makeRoomBy? c' t.memory t.now = some roomy := by
  have many : s.memory.target < (s.memory.purge s.now).size := packed ▸ target_lt h.left.room
  have many' : t.memory.target < (t.memory.purge t.now).size :=
    (h.packed packed) ▸ target_lt h.right.room
  have target : t.memory.target = s.memory.target := by
    rw [Memory.target, Memory.target, h.capacity]
  have same := evictBy?_relisted h.perm_purge h.capacity s.memory.target c
  refine ⟨c.relisted h.perm_purge, ?_⟩
  rw [makeRoomBy?_of_lt h.right.room many', target, same, ← made,
    makeRoomBy?_of_lt h.left.room many]

/-- A count that is calm and does not find the memory packed drops no live
entry. -/
theorem incrementBy?_of_calm (h : m.Bounded) (calm : ¬ m.Cramped now key)
    (loose : ¬ m.Packed now) (absent : m.live? now key = none) (c : Choice) :
    ∃ roomy : Memory, incrementBy? c m now key window = some (1, roomy.put key ⟨1, now + window⟩) ∧
      ∀ k, roomy.live? now k = m.live? now k := by
  cases full : m.isFullFor key with
  | false =>
      refine ⟨m, ?_, fun k => rfl⟩
      rw [incrementBy?_of_not_full full, increment_eq_put full, absent]
      rfl
  | true =>
      have sizes := size_purge_le m now
      have capacity := (isFullFor_iff.mp full).2
      have some_ended : (m.purge now).size < m.size := by
        refine Nat.lt_of_le_of_ne sizes fun all => loose ?_
        exact all.trans (Nat.le_antisymm h.fits capacity)
      have few : (m.purge now).size ≤ m.target :=
        Nat.le_of_not_lt fun many => calm ⟨full, many, some_ended⟩
      refine ⟨m.purge now, ?_, live?_purge h.wellKeyed now⟩
      rw [incrementBy?_of_full full, makeRoomBy?_of_le h.room few]
      rfl

theorem incrementBy?_of_live {e : Entry} (live : m.live? now key = some e) (window : Span)
    (c : Choice) :
    incrementBy? c m now key window =
      some (e.count + 1, m.put key { e with count := e.count + 1 }) := by
  rw [incrementBy?, live]

/-- Memories that were alike are alike after one entry was put in both. -/
theorem Alike.counted (h : Alike s t) {n n' : Nat} {roomy roomy' : Memory} {e : Entry}
    (live : ∀ k, roomy.live? s.now k = roomy'.live? t.now k)
    (counts : incrementBy? c s.memory s.now key window = some (n, roomy.put key e))
    (counts' : incrementBy? c' t.memory t.now key window = some (n', roomy'.put key e)) :
    Alike { s with memory := roomy.put key e } { t with memory := roomy'.put key e } := by
  obtain ⟨_, _, left, bounded, capacity⟩ := h.left.increment s.now key window c
  obtain ⟨_, _, right, bounded', capacity'⟩ := h.right.increment t.now key window c'
  cases left.symm.trans counts
  cases right.symm.trans counts'
  refine ⟨h.now, capacity.trans (h.capacity.trans capacity'.symm), bounded, bounded', fun k => ?_⟩
  show (roomy.put key e).live? s.now k = (roomy'.put key e).live? t.now k
  rw [live?_put, live?_put, live, h.now]

/-- What one of two alike memories counts, the other counts by some choice. -/
theorem Alike.increment (h : Alike s t) (calm : ¬ s.memory.Cramped s.now key)
    (calm' : ¬ t.memory.Cramped t.now key) {n : Nat}
    (counts : incrementBy? c s.memory s.now key window = some (n, m)) :
    ∃ c' m', incrementBy? c' t.memory t.now key window = some (n, m') ∧
      Alike { s with memory := m } { t with memory := m' } := by
  obtain ⟨now, left⟩ := s
  obtain ⟨now', right⟩ := t
  obtain rfl : now = now' := h.now
  cases live : left.live? now key with
  | some e =>
      have live' : right.live? now key = some e := (h.live key).symm.trans live
      have counted := incrementBy?_of_live live window c
      have counted' := incrementBy?_of_live live' window c
      cases counted.symm.trans counts
      exact ⟨c, _, counted', h.counted h.live counted counted'⟩
  | none =>
      have live' : right.live? now key = none := (h.live key).symm.trans live
      by_cases packed : left.Packed now
      · -- Both memories hold the same entries and no others, so both evict.
        have packed' : right.Packed now := h.packed packed
        obtain ⟨roomy, made, -⟩ := makeRoomBy?_frees h.left.wellKeyed h.left.room now c
        obtain ⟨c', made'⟩ := h.makeRoom packed made
        have counted : incrementBy? c left now key window =
            some (1, roomy.put key ⟨1, now + window⟩) := by
          rw [incrementBy?_of_full (packed.isFullFor h.left live), made, Option.map_some]
        have counted' : incrementBy? c' right now key window =
            some (1, roomy.put key ⟨1, now + window⟩) := by
          rw [incrementBy?_of_full (packed'.isFullFor h.right live'), made', Option.map_some]
        cases counted.symm.trans counts
        exact ⟨c', _, counted', h.counted (fun _ => rfl) counted counted'⟩
      · have packed' : ¬ right.Packed now := fun packed' => packed (h.symm.packed packed')
        obtain ⟨roomy, counted, same⟩ := incrementBy?_of_calm h.left calm packed live c
        obtain ⟨roomy', counted', same'⟩ := incrementBy?_of_calm h.right calm' packed' live' c
        cases counted.symm.trans counts
        refine ⟨c, _, counted', h.counted (fun k => ?_) counted counted'⟩
        exact (same k).trans ((h.live k).trans (same' k).symm)

/-! ### Runs -/

/-- What one of two alike memories answers, the other answers by some choice. -/
theorem Alike.step (h : Alike s t) {op : Op} (calm : ¬ op.Crowds s) (calm' : ¬ op.Crowds t)
    {answer : Option Nat} (step : op.stepBy? c s = some (answer, s')) :
    ∃ c' t', op.stepBy? c' t = some (answer, t') ∧ Alike s' t' := by
  cases op with
  | increment key window =>
      obtain ⟨⟨n, m⟩, counts, same⟩ := Option.map_eq_some_iff.mp step
      cases same
      obtain ⟨c', m', counts', alike⟩ := h.increment (fun cramped => calm ⟨_, _, rfl, cramped⟩)
        (fun cramped => calm' ⟨_, _, rfl, cramped⟩) counts
      exact ⟨c', _, by rw [Op.stepBy?, counts', Option.map_some], alike⟩
  | count key =>
      cases step
      refine ⟨c, t, ?_, h⟩
      rw [Op.stepBy?, Memory.count, Memory.count, h.live key]
  | ttl key =>
      cases step
      refine ⟨c, t, ?_, h⟩
      rw [Op.stepBy?, Memory.ttl, Memory.ttl, h.live key, h.now]
  | purge =>
      cases step
      exact ⟨c, _, rfl, h.purge.symm.purge.symm⟩
  | reset =>
      cases step
      exact ⟨c, _, rfl, h.reset⟩
  | advance d =>
      cases step
      exact ⟨c, _, rfl, h.advance d⟩

/-- What a calm run may answer, it may answer with other purges. -/
theorem Alike.yields (same : UpToPurges ops ops') (h : Alike s t) (calm : Calm ops s)
    (calm' : Calm ops' t) (yields : Yields ops s answers) : Yields ops' t answers := by
  induction same generalizing s t answers with
  | nil =>
      cases yields
      exact .nil
  | both op _ ih =>
      cases yields with
      | cons step rest =>
          obtain ⟨c', t', step', alike⟩ := h.step calm.1 calm'.1 step
          exact .cons step' (ih alike (calm.2 _ _ _ step) (calm'.2 _ _ _ step') rest)
  | left _ ih =>
      cases yields with
      | cons step rest =>
          have calm := calm.2 _ _ _ step
          cases step
          exact ih h.purge calm calm' rest
  | right _ ih =>
      have step : Op.purge.stepBy? .sorted t =
          some (none, { t with memory := t.memory.purge t.now }) := rfl
      exact .cons step (ih h.symm.purge.symm calm (calm'.2 _ _ _ step) yields)

/-! ### Runs with room for all keys -/

theorem Yields.exists_step {op : Op} (h : Yields (op :: ops) s answers) :
    ∃ c answer t rest, op.stepBy? c s = some (answer, t) ∧ Yields ops t rest ∧
      answers = answer.toList ++ rest := by
  cases h with
  | cons step rest => exact ⟨_, _, _, _, step, rest, rfl⟩

/-- A count of a key that there is room for leaves no choice, nor does any other
operation, and there is room for the same keys afterwards. -/
theorem Roomy.step {keys : List String} (h : s.memory.Roomy keys) {op : Op}
    (mem : ∀ key, op.counted? = some key → key ∈ keys) (c c' : Choice) :
    op.stepBy? c s = op.stepBy? c' s ∧
      ∀ answer t, op.stepBy? c s = some (answer, t) → t.memory.Roomy keys := by
  cases op with
  | increment key window =>
      have known := mem key rfl
      have roomy := h.isFullFor known
      constructor
      · rw [Op.stepBy?, Op.stepBy?, incrementBy?_of_not_full roomy, incrementBy?_of_not_full roomy]
      · intro answer t step
        rw [Op.stepBy?, incrementBy?_of_not_full roomy, increment_eq_put roomy] at step
        cases step
        exact h.put known _
  | purge => exact ⟨rfl, fun _ _ step => by cases step; exact h.purge s.now⟩
  | reset =>
      refine ⟨rfl, fun _ _ step => ?_⟩
      cases step
      exact ⟨List.nodup_nil, fun _ there => absurd there List.not_mem_nil, h.room⟩
  | count _ | ttl _ | advance _ => exact ⟨rfl, fun _ _ step => by cases step; exact h⟩

/-- Where there is room for every key that is counted, the first step of a run is
that of the run by any choice, and so there is room afterwards. -/
theorem Roomy.cons {keys : List String} (h : s.memory.Roomy keys) {op : Op} {u : Timed}
    (mem : ∀ key, op.counted? = some key → key ∈ keys) {answer : Option Nat} {first : List Nat}
    (ran : runBy? ((op :: ops).map fun op => (op, c)) s = some (first, t))
    (step : op.stepBy? c' s = some (answer, u)) :
    u.memory.Roomy keys ∧ ∃ later, runBy? (ops.map fun op => (op, c)) u = some (later, t) ∧
      first = answer.toList ++ later := by
  obtain ⟨same, roomy⟩ := h.step mem c c'
  rw [← same] at step
  rw [List.map_cons, runBy?_cons step, Option.map_eq_some_iff] at ran
  obtain ⟨⟨later, t⟩, ran, done⟩ := ran
  cases done
  exact ⟨roomy _ _ step, later, ran, rfl⟩

section Room

variable {keys : List String} {first : List Nat} (h : s.memory.Roomy keys)
  (mem : ∀ op ∈ ops, ∀ key, op.counted? = some key → key ∈ keys)
  (ran : runBy? (ops.map fun op => (op, c)) s = some (first, t))

include h mem ran

/-- As long as there is room for every key that is counted, a run answers in one
way only. -/
theorem Yields.of_append (yields : Yields (ops ++ ops') s answers) :
    ∃ rest, answers = first ++ rest ∧ Yields ops' t rest := by
  induction ops generalizing s first answers with
  | nil =>
      cases ran
      exact ⟨answers, rfl, yields⟩
  | cons op later ih =>
      obtain ⟨c', answer, u, others, step, after, rfl⟩ := yields.exists_step
      obtain ⟨roomy, first, goes_on, rfl⟩ := h.cons (mem op List.mem_cons_self) ran step
      obtain ⟨rest, rfl, last⟩ :=
        ih roomy (fun op' hop => mem op' (List.mem_cons_of_mem op hop)) goes_on after
      exact ⟨rest, (List.append_assoc _ _ _).symm, last⟩

/-- So long it is calm, too. -/
theorem Roomy.calm_append (calm : Calm ops' t) : Calm (ops ++ ops') s := by
  induction ops generalizing s first with
  | nil =>
      cases ran
      exact calm
  | cons op later ih =>
      constructor
      · rintro ⟨key, window, rfl, full, -⟩
        rw [h.isFullFor (mem _ List.mem_cons_self key rfl)] at full
        cases full
      · intro c' answer u step
        obtain ⟨roomy, first, goes_on, -⟩ := h.cons (mem op List.mem_cons_self) ran step
        exact ih roomy (fun op' hop => mem op' (List.mem_cons_of_mem op hop)) goes_on

end Room

/-! ### Purges that go unseen -/

/-- With room for less than twenty keys, a memory goes one key at a time, and one
ended entry is room enough. -/
theorem calm_of_small (h : s.memory.Bounded) (small : s.memory.capacity < 20) (ops : List Op) :
    Calm ops s := by
  induction ops generalizing s with
  | nil => trivial
  | cons op rest ih =>
      constructor
      · rintro ⟨key, window, -, -, many, some_ended⟩
        have one : batch s.memory.capacity = 1 := by
          rw [batch]
          omega
        have fits := h.fits
        rw [target, one] at many
        omega
      · intro c answer t step
        obtain ⟨answer', t', step', bounded, capacity⟩ := h.step op c
        cases step'.symm.trans step
        exact ih bounded (capacity ▸ small)

/-- **Purges go unseen while no count crowds the memory.** A run from an empty
memory answers, and what it may answer, it may answer with any other purges. With
room for less than twenty keys that is so for every run; with room for more it
takes that no count, in either run, finds a full memory in which an ended entry
takes up room and more entries are live than are kept. -/
theorem purges_go_unseen (capacity : Nat) (start : Instant) (same : UpToPurges ops ops')
    (calm : 20 ≤ capacity →
      Calm ops ⟨start, empty capacity⟩ ∧ Calm ops' ⟨start, empty capacity⟩) :
    (∃ answers, Yields ops ⟨start, empty capacity⟩ answers) ∧
      ∀ answers, Yields ops ⟨start, empty capacity⟩ answers ↔
        Yields ops' ⟨start, empty capacity⟩ answers := by
  have bounded : (Timed.mk start (empty capacity)).memory.Bounded := bounded_empty capacity
  have calm : Calm ops ⟨start, empty capacity⟩ ∧ Calm ops' ⟨start, empty capacity⟩ := by
    by_cases small : capacity < 20
    · have room : (empty capacity).capacity < 20 := Nat.max_lt.mpr ⟨by decide, small⟩
      exact ⟨calm_of_small bounded room ops, calm_of_small bounded room ops'⟩
    · exact calm (Nat.le_of_not_lt small)
  constructor
  · obtain ⟨answers, _, ran, -⟩ := bounded.run (ops.map fun op => (op, .sorted))
    refine ⟨answers, ?_⟩
    have yields := Yields.of_runBy? ran
    rwa [List.map_map, Function.comp_def, List.map_id'] at yields
  · intro answers
    constructor
    · exact Alike.yields same (.refl bounded) calm.1 calm.2
    · exact Alike.yields same.symm (.refl bounded) calm.2 calm.1

/-- Counts of twenty keys. The first has ended by now, and the others end one after
the other. -/
def twentyKeys : List Op :=
  .increment "old" (Span.seconds 1) ::
    (List.range 19).map (fun i =>
      .increment ("k" ++ Text.Decimal.ofNat i) (Span.seconds (60 + i))) ++
    [.advance (Span.seconds 2)]

/-- What twenty keys leave. -/
def crowded : Timed where
  now := Span.seconds 2
  memory :=
    { capacity := 20
      entries :=
        (List.range 19).reverse.map (fun i =>
            ("k" ++ Text.Decimal.ofNat i, ⟨1, Span.seconds (60 + i)⟩)) ++
          [("old", ⟨1, Span.seconds 1⟩)] }

theorem runBy?_twentyKeys :
    runBy? (twentyKeys.map fun op => (op, Choice.sorted)) ⟨0, empty 20⟩ =
      some (List.replicate 20 1, crowded) := by
  rfl

/-- There was room for the twenty keys. -/
theorem roomy_twentyKeys :
    (Timed.mk 0 (empty 20)).memory.Roomy (twentyKeys.filterMap Op.counted?) :=
  roomy_empty (by decide)

theorem mem_counted {op : Op} (hop : op ∈ ops) {key : String} (h : op.counted? = some key) :
    key ∈ ops.filterMap Op.counted? :=
  List.mem_filterMap.mpr ⟨op, hop, h⟩

/-- A count beside the twenty keys, of which four have ended by then. -/
def afterwards (purges : List Op) : List Op :=
  twentyKeys ++ (.advance (Span.seconds 60) ::
    purges ++ [.increment "new" (Span.seconds 60), .count "k18"])

theorem calm_afterwards {purges : List Op}
    (calm : Calm (.advance (Span.seconds 60) ::
      purges ++ [.increment "new" (Span.seconds 60), .count "k18"]) crowded) :
    Calm (afterwards purges) ⟨0, empty 20⟩ :=
  roomy_twentyKeys.calm_append (fun _ hop _ => mem_counted hop) runBy?_twentyKeys calm

/-- The keys that have ended give way to another one, as they do where they were
purged. -/
theorem ended_keys_give_way :
    UpToPurges (afterwards []) (afterwards [.purge]) ∧
      (20 ≤ 20 → Calm (afterwards []) ⟨0, empty 20⟩ ∧ Calm (afterwards [.purge]) ⟨0, empty 20⟩) ∧
      Yields (afterwards []) ⟨0, empty 20⟩ (List.replicate 22 1) := by
  have last {s : Timed} (calm : ¬ s.memory.Cramped s.now "new") :
      Calm [.increment "new" (Span.seconds 60), .count "k18"] s := by
    refine ⟨?_, fun _ _ _ _ => ⟨nofun, fun _ _ _ _ => trivial⟩⟩
    rintro ⟨_, _, ⟨⟩, cramped⟩
    exact calm cramped
  have same : UpToPurges (afterwards []) (afterwards [.purge]) :=
    .append_left _ (.both _ (.right (.refl _)))
  have calm : Calm (afterwards []) ⟨0, empty 20⟩ := by
    refine calm_afterwards ⟨nofun, fun _ _ _ step => ?_⟩
    cases step
    exact last (by decide)
  have calm' : Calm (afterwards [.purge]) ⟨0, empty 20⟩ := by
    refine calm_afterwards ⟨nofun, fun _ _ _ step => ?_⟩
    cases step
    refine ⟨nofun, fun _ _ _ step => ?_⟩
    cases step
    exact last (by decide)
  have purged : Yields (afterwards [.purge]) ⟨0, empty 20⟩ (List.replicate 22 1) := by
    obtain ⟨t, ran⟩ : ∃ t, runBy? ((afterwards [.purge]).map fun op => (op, Choice.sorted))
        ⟨0, empty 20⟩ = some (List.replicate 22 1, t) := ⟨_, rfl⟩
    exact .of_runBy? ran
  have unseen := (purges_go_unseen 20 0 same fun _ => ⟨calm, calm'⟩).2
  exact ⟨same, fun _ => ⟨calm, calm'⟩, (unseen _).mpr purged⟩

/-! ### A purge that is seen -/

/-- Where one live entry has to go, the one that ends before all others goes. -/
theorem Counts.find?_eq_none {n : Nat} (h : Counts m now key window n m')
    (absent : m.find? key = none) (full : m.size = m.capacity)
    (beyond : (m.purge now).size - m.target = 1) {first : String} (other : first ≠ key) {e : Entry}
    (soonest : ∀ p ∈ (m.purge now).entries, p.1 ≠ first → e.expiresAt < p.2.expiresAt)
    (found : m.find? first = some e) : m'.find? first = none := by
  cases stays : m'.find? first with
  | none => rfl
  | some e' =>
      obtain rfl : e = e' := Option.some.inj (found.symm.trans (h.kept first other e' stays))
      obtain ⟨gone, lost⟩ := List.length_eq_one_iff.mp ((h.number absent full).trans beyond)
      have mem : gone ∈ m.lost now m' := lost ▸ List.mem_singleton_self gone
      obtain ⟨there, dropped⟩ := List.mem_filter.mp mem
      have another : gone.1 ≠ first := by
        intro same
        rw [same, stays] at dropped
        cases dropped
      have later := soonest gone there another
      have sooner := h.soonest absent full gone mem first other e stays
      exact absurd later (Nat.not_lt.mpr sooner)

/-- A count beside twenty keys, and the count of the one that ends next. -/
def crowd (purges : List Op) : List Op :=
  twentyKeys ++ (purges ++ [.increment "new" (Span.seconds 60), .count "k0"])

/-- Beside the twenty keys, a new one takes the place of the ended one and of the
one that ends next. -/
theorem increment_crowded (window : Span) {n : Nat} (c : Choice)
    (counts : incrementBy? c crowded.memory crowded.now "new" window = some (n, m)) :
    m.count crowded.now "k0" = 0 := by
  have bounded : crowded.memory.Bounded := by
    have start : (Timed.mk 0 (empty 20)).memory.Bounded := bounded_empty 20
    obtain ⟨_, _, ran, bounded, -⟩ := start.run (twentyKeys.map fun op => (op, Choice.sorted))
    cases ran.symm.trans runBy?_twentyKeys
    exact bounded
  have full : crowded.memory.isFullFor "new" = true := by decide
  rcases incrementBy?_cases bounded crowded.now "new" window c with
    ⟨roomy, -⟩ | ⟨-, room, -, frees, counted⟩
  · rw [full] at roomy
    cases roomy
  · cases counted.symm.trans counts
    have counts : Counts crowded.memory crowded.now "new" window 1 _ :=
      counts_of_full bounded full frees
    have soonest : ∀ p ∈ (crowded.memory.purge crowded.now).entries, p.1 ≠ "k0" →
        Span.seconds 60 < p.2.expiresAt := by decide
    have first : crowded.memory.find? "k0" = some ⟨1, Span.seconds 60⟩ := by decide
    have gone := counts.find?_eq_none (by decide) (by decide) (by decide) (by decide) soonest first
    rw [Memory.count, live?_eq_none gone]
    rfl

/-- In a memory for twenty keys, a count that finds it full drops the key that
ends next along with the ended one. Where that was purged before, nothing has to
make room. -/
theorem purge_spares_a_live_key :
    UpToPurges (crowd []) (crowd [.purge]) ∧
      Yields (crowd [.purge]) ⟨0, empty 20⟩ (List.replicate 22 1) ∧
      ¬ Yields (crowd []) ⟨0, empty 20⟩ (List.replicate 22 1) := by
  refine ⟨.append_left _ (.right (.refl _)), ?_, ?_⟩
  · obtain ⟨t, ran⟩ : ∃ t, runBy? ((crowd [.purge]).map fun op => (op, Choice.sorted))
        ⟨0, empty 20⟩ = some (List.replicate 22 1, t) := ⟨_, rfl⟩
    exact .of_runBy? ran
  · intro yields
    obtain ⟨rest, answers, yields⟩ := Yields.of_append roomy_twentyKeys
      (fun _ hop _ => mem_counted hop) runBy?_twentyKeys yields
    have last : List.replicate 20 1 ++ [1, 1] = List.replicate 20 1 ++ rest := answers
    obtain rfl := List.append_cancel_left last
    obtain ⟨c, _, _, _, step, yields, answers⟩ := yields.exists_step
    obtain ⟨⟨n, m⟩, counts, same⟩ := Option.map_eq_some_iff.mp step
    cases same
    obtain ⟨_, _, _, _, step, -, rfl⟩ := yields.exists_step
    cases step
    rw [increment_crowded _ c counts] at answers
    simp at answers

end Gatehouse.Memory
