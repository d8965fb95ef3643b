import Gatehouse.Proofs.Store.Entries

/-!
What a full memory drops.

A memory keeps its entries in no order of its own, and nothing says which of
several entries goes that end at the same time. Both are left open here: a
`Choice` lists the entries in some order and selects, by the ends of the windows,
those that go. The sorting of `makeRoom` is one choice among others
(`incrementBy?_sorted`), and what is proved holds for all of them.

Sizes cannot be taken from smaller ones, and a place to select has to lie in the
list. Room is therefore made in `Option`, where each of these can fail.

* `makeRoomBy?_frees` is the account of making room: nothing fails, and what is
  left are the live entries that end last.
* `incrementBy?_cases` tells a count that evicts from one that does not.
* `full_memory_evicts_soonest` is the account of a memory after any run.
-/

namespace Gatehouse

namespace Memory

/-! ### Making room, one choice at a time -/

/-- What an eviction is free in. The entries are listed in any order, and a
partial selection brings to one place of a list what sorting by the ends would
bring there, with no later end before it and no earlier one after it. -/
structure Choice where
  listed : List (String × Entry) → List (String × Entry)
  perm_listed : ∀ l, (listed l).Perm l
  select : Nat → List (Instant × String) → List (Instant × String)
  perm_select : ∀ place l, (select place l).Perm l
  before : ∀ place l x, (select place l)[place]? = some x →
    ∀ y ∈ (select place l).take place, y.1 ≤ x.1
  after : ∀ place l x, (select place l)[place]? = some x →
    ∀ y ∈ (select place l).drop place, x.1 ≤ y.1

/-- The difference of two sizes, if there is one. -/
def minus? (a b : Nat) : Option Nat :=
  if b ≤ a then some (a - b) else none

/-- The end of an entry's window, with its key. -/
def ending (p : String × Entry) : Instant × String :=
  (p.2.expiresAt, p.1)

/-- Drop the entries that end soonest, until `target` of them are left. -/
def evictBy? (c : Choice) (target : Nat) (m : Memory) : Option Memory := do
  let excess ← minus? m.size target
  let place ← minus? excess 1
  let listed := c.listed m.entries
  if place < listed.length then
    let gone := ((c.select place (listed.map ending)).take excess).map Prod.snd
    some { m with entries := listed.filter fun p => !gone.contains p.1 }
  else none

def makeRoomBy? (c : Choice) (m : Memory) (now : Instant) : Option Memory := do
  let target ← minus? m.capacity (batch m.capacity)
  if (m.purge now).size ≤ target then some (m.purge now)
  else evictBy? c target (m.purge now)

/-- Add one to a key and give the new count. -/
def incrementBy? (c : Choice) (m : Memory) (now : Instant) (key : String) (window : Span) :
    Option (Nat × Memory) :=
  match m.live? now key with
  | some e => some (e.count + 1, m.put key { e with count := e.count + 1 })
  | none => do
      let roomy ← if m.isFullFor key then makeRoomBy? c m now else some m
      some (1, roomy.put key ⟨1, now + window⟩)

/-- How many live entries a memory keeps when it makes room. -/
def target (m : Memory) : Nat :=
  m.capacity - batch m.capacity

variable {m m' : Memory} {now : Instant} {key : String} {window : Span} {c : Choice}

theorem minus?_of_le {a b : Nat} (h : b ≤ a) : minus? a b = some (a - b) :=
  if_pos h

/-- A batch never is more than all there is room for. -/
theorem batch_le {capacity : Nat} (room : 1 ≤ capacity) : batch capacity ≤ capacity := by
  have tenth : capacity / 10 ≤ capacity := Nat.div_le_self _ _
  exact Nat.max_le.mpr ⟨room, tenth⟩

theorem target_lt (room : 1 ≤ m.capacity) : m.target < m.capacity := by
  have one : 1 ≤ batch m.capacity := Nat.le_max_left _ _
  have fits := batch_le room
  simp only [target]
  omega

theorem mem_entries_iff (h : m.WellKeyed) {e : Entry} :
    (key, e) ∈ m.entries ↔ m.find? key = some e :=
  Assoc.mem_iff_lookup h

theorem mem_purge_iff (h : m.WellKeyed) {e : Entry} :
    (key, e) ∈ (m.purge now).entries ↔ m.live? now key = some e := by
  rw [mem_entries_iff (h.purge now), find?_purge h]

/-! ### Partial selection -/

section Selection

/-- Dropping by their names those that stand in front leaves the others. -/
theorem filter_not_mem_take {α β : Type} [BEq β] [LawfulBEq β] {name : α → β} {l : List α}
    (h : (l.map name).Nodup) (n : Nat) :
    (l.filter fun x => !((l.take n).map name).contains (name x)) = l.drop n := by
  have split : (l.take n).map name ++ (l.drop n).map name = l.map name := by
    rw [← List.map_append, List.take_append_drop]
  have apart := (List.nodup_append.mp (split ▸ h)).2.2
  have front : ((l.take n).filter fun x => !((l.take n).map name).contains (name x)) = [] := by
    refine List.filter_eq_nil_iff.mpr fun x hx => ?_
    have named := List.mem_map_of_mem (f := name) hx
    simp only [List.contains_iff_mem.mpr named, Bool.not_true, Bool.false_eq_true,
      not_false_eq_true]
  have rest : ((l.drop n).filter fun x => !((l.take n).map name).contains (name x)) =
      l.drop n := by
    refine List.filter_eq_self.mpr fun x hx => ?_
    have new : name x ∉ (l.take n).map name := by
      intro old
      exact apart _ old _ (List.mem_map_of_mem hx) rfl
    simpa using new
  have parts (p : α → Bool) : l.filter p = (l.take n).filter p ++ (l.drop n).filter p := by
    rw [← List.filter_append, List.take_append_drop]
  rw [parts, front, rest, List.nil_append]

/-- What is selected ends no later than what is not. -/
theorem Choice.le_of_mem_take (c : Choice) {place : Nat} {l : List (Instant × String)}
    (inside : place < l.length) {x y : Instant × String}
    (hx : x ∈ (c.select place l).take (place + 1)) (hy : y ∈ (c.select place l).drop (place + 1)) :
    x.1 ≤ y.1 := by
  have length : place < (c.select place l).length := (c.perm_select place l).length_eq ▸ inside
  obtain ⟨z, hz⟩ : ∃ z, (c.select place l)[place]? = some z :=
    ⟨_, List.getElem?_eq_getElem length⟩
  have after : z.1 ≤ y.1 := by
    refine c.after place l z hz y ?_
    rw [← List.tail_drop] at hy
    exact List.mem_of_mem_tail hy
  rw [List.take_add_one, hz, Option.toList_some] at hx
  rcases List.mem_append.mp hx with early | last
  · exact Nat.le_trans (c.before place l z hz x early) after
  · rw [List.mem_singleton.mp last]
    exact after

end Selection

/-! ### What is left -/

/-- An eviction leaves `target` entries as they were, and none that is gone ended
later than one that is left. -/
structure Evicts (target : Nat) (m m' : Memory) : Prop where
  capacity : m'.capacity = m.capacity
  wellKeyed : m'.WellKeyed
  size : m'.size = target
  kept : ∀ key e, m'.find? key = some e → m.find? key = some e
  soonest : ∀ gone e key e', m.find? gone = some e → m'.find? gone = none →
    m'.find? key = some e' → e.expiresAt ≤ e'.expiresAt

/-- The entries that an eviction of `excess` entries leaves, in the listed order. -/
def leftBy (c : Choice) (excess : Nat) (entries : List (String × Entry)) :
    List (String × Entry) :=
  let chosen := c.select (excess - 1) ((c.listed entries).map ending)
  (c.listed entries).filter fun p => !((chosen.take excess).map Prod.snd).contains p.1

theorem evictBy?_eq {target : Nat} (beyond : target < m.size) (c : Choice) :
    evictBy? c target m = some { m with entries := leftBy c (m.size - target) m.entries } := by
  have place : m.size - target - 1 < (c.listed m.entries).length := by
    rw [(c.perm_listed m.entries).length_eq]
    show m.size - target - 1 < m.size
    omega
  simp only [evictBy?, minus?_of_le (Nat.le_of_lt beyond), minus?_of_le (Nat.sub_pos_of_lt beyond),
    Option.bind_eq_bind, Option.bind_some, if_pos place, leftBy]

theorem mem_of_mem_leftBy {excess : Nat} {entries : List (String × Entry)} {p : String × Entry}
    (h : p ∈ leftBy c excess entries) : p ∈ entries :=
  (c.perm_listed entries).mem_iff.mp (List.mem_of_mem_filter h)

theorem nodup_keys_leftBy {entries : List (String × Entry)} (h : (Assoc.keys entries).Nodup)
    (excess : Nat) : (Assoc.keys (leftBy c excess entries)).Nodup :=
  Assoc.nodup_keys_filter (((c.perm_listed entries).map Prod.fst).nodup_iff.mpr h) _

/-- The entries that are left are those behind the selected place. -/
theorem map_ending_leftBy {entries : List (String × Entry)} (h : (Assoc.keys entries).Nodup)
    (excess : Nat) :
    ((leftBy c excess entries).map ending).Perm
      ((c.select (excess - 1) ((c.listed entries).map ending)).drop excess) := by
  have chosen := c.perm_select (excess - 1) ((c.listed entries).map ending)
  have names : ((c.select (excess - 1) ((c.listed entries).map ending)).map Prod.snd).Nodup := by
    have keys : ((c.listed entries).map ending).map Prod.snd = Assoc.keys (c.listed entries) := by
      simp [Assoc.keys, Function.comp_def, ending]
    rw [(chosen.map Prod.snd).nodup_iff, keys]
    exact ((c.perm_listed entries).map Prod.fst).nodup_iff.mpr h
  rw [← filter_not_mem_take names, leftBy]
  have filtered (gone : List String) :
      ((c.listed entries).filter fun p => !gone.contains p.1).map ending =
        ((c.listed entries).map ending).filter fun x => !gone.contains x.2 := by
    rw [List.filter_map]
    rfl
  rw [filtered]
  exact chosen.symm.filter _

/-- An entry that an eviction drops is among those that it selects. -/
theorem mem_take_of_not_mem_leftBy {entries : List (String × Entry)}
    (h : (Assoc.keys entries).Nodup) {excess : Nat} {p : String × Entry} (mem : p ∈ entries)
    (gone : p.1 ∉ Assoc.keys (leftBy c excess entries)) :
    ending p ∈ (c.select (excess - 1) ((c.listed entries).map ending)).take excess := by
  have chosen := c.perm_select (excess - 1) ((c.listed entries).map ending)
  have there : ending p ∈ c.select (excess - 1) ((c.listed entries).map ending) :=
    chosen.mem_iff.mpr (List.mem_map_of_mem ((c.perm_listed entries).mem_iff.mpr mem))
  rw [← List.take_append_drop excess (c.select _ _), List.mem_append] at there
  rcases there with early | late
  · exact early
  · obtain ⟨q, hq, same⟩ := List.mem_map.mp ((map_ending_leftBy h excess).mem_iff.mpr late)
    have name : q.1 = p.1 := congrArg Prod.snd same
    have left : p.1 ∈ Assoc.keys (leftBy c excess entries) := name ▸ List.mem_map_of_mem hq
    exact absurd left gone

theorem evictBy?_evicts (h : m.WellKeyed) {target : Nat} (beyond : target < m.size) (c : Choice) :
    ∃ m', evictBy? c target m = some m' ∧ Evicts target m m' := by
  have wellKeyed := nodup_keys_leftBy (c := c) h (m.size - target)
  have left := map_ending_leftBy (c := c) h (m.size - target)
  have listed : ((c.listed m.entries).map ending).length = m.size := by
    rw [List.length_map, (c.perm_listed m.entries).length_eq]
    rfl
  refine ⟨_, evictBy?_eq beyond c, ?_⟩
  constructor
  case capacity => rfl
  case wellKeyed => exact wellKeyed
  case size =>
    show (leftBy c (m.size - target) m.entries).length = target
    rw [← List.length_map, left.length_eq, List.length_drop, (c.perm_select _ _).length_eq, listed]
    omega
  case kept =>
    intro key e found
    have mem : (key, e) ∈ leftBy c (m.size - target) m.entries :=
      (Assoc.mem_iff_lookup wellKeyed).mpr found
    exact (mem_entries_iff h).mp (mem_of_mem_leftBy mem)
  case soonest =>
    intro gone e key e' found lost stays
    have early := mem_take_of_not_mem_leftBy (c := c) h ((mem_entries_iff h).mpr found)
      (Assoc.lookup_eq_none.mp lost)
    have late : ending (key, e') ∈ _ :=
      left.mem_iff.mp (List.mem_map_of_mem ((Assoc.mem_iff_lookup wellKeyed).mpr stays))
    have place : m.size - target - 1 < ((c.listed m.entries).map ending).length := by
      rw [listed]
      omega
    have next : m.size - target = m.size - target - 1 + 1 := by omega
    rw [next] at early late
    exact c.le_of_mem_take place early late

/-- Making room leaves live entries as they were, as many as there are up to
`target`, and none that is gone ended later than one that is left. -/
structure FreesRoom (now : Instant) (m m' : Memory) : Prop where
  capacity : m'.capacity = m.capacity
  wellKeyed : m'.WellKeyed
  size : m'.size = min (m.purge now).size m.target
  kept : ∀ key e, m'.find? key = some e → m.live? now key = some e
  soonest : ∀ gone e key e', m.live? now gone = some e → m'.find? gone = none →
    m'.find? key = some e' → e.expiresAt ≤ e'.expiresAt

theorem makeRoomBy?_of_le (room : 1 ≤ m.capacity) (few : (m.purge now).size ≤ m.target)
    (c : Choice) : makeRoomBy? c m now = some (m.purge now) := by
  simp only [makeRoomBy?, minus?_of_le (batch_le room), Option.bind_eq_bind, Option.bind_some]
  exact if_pos few

theorem makeRoomBy?_of_lt (room : 1 ≤ m.capacity) (many : m.target < (m.purge now).size)
    (c : Choice) : makeRoomBy? c m now = evictBy? c m.target (m.purge now) := by
  simp only [makeRoomBy?, minus?_of_le (batch_le room), Option.bind_eq_bind, Option.bind_some]
  exact if_neg (Nat.not_le.mpr many)

/-- **Making room never fails**, and it frees room as it should, whatever the
choice. -/
theorem makeRoomBy?_frees (h : m.WellKeyed) (room : 1 ≤ m.capacity) (now : Instant) (c : Choice) :
    ∃ m', makeRoomBy? c m now = some m' ∧ FreesRoom now m m' := by
  have live := find?_purge h now
  by_cases few : (m.purge now).size ≤ m.target
  · refine ⟨_, makeRoomBy?_of_le room few c, ?_⟩
    constructor
    case capacity => rfl
    case wellKeyed => exact h.purge now
    case size => exact (Nat.min_eq_left few).symm
    case kept =>
      intro key e found
      rw [← live, found]
    case soonest =>
      intro gone e key e' found lost
      rw [live, found] at lost
      cases lost
  · have many := Nat.lt_of_not_le few
    obtain ⟨m', made, evicts⟩ := evictBy?_evicts (h.purge now) many c
    refine ⟨m', (makeRoomBy?_of_lt room many c).trans made, ?_⟩
    constructor
    case capacity => exact evicts.capacity
    case wellKeyed => exact evicts.wellKeyed
    case size => rw [evicts.size, Nat.min_eq_right (Nat.le_of_lt many)]
    case kept =>
      intro key e found
      rw [← live]
      exact evicts.kept key e found
    case soonest =>
      intro gone e key e' found
      rw [← live] at found
      exact evicts.soonest gone e key e' found

/-! ### Counting a key -/

theorem live?_of_isFullFor (full : m.isFullFor key = true) (now : Instant) :
    m.live? now key = none := by
  rw [isFullFor, Bool.and_eq_true, Option.isNone_iff_eq_none] at full
  rw [live?, full.1, Option.filter_none]

/-- A count in a memory that is not full leaves no choice. -/
theorem incrementBy?_of_not_full (roomy : m.isFullFor key = false) (c : Choice) :
    incrementBy? c m now key window = some (m.increment now key window) := by
  rw [incrementBy?, increment]
  cases m.live? now key with
  | some e => rfl
  | none => simp [roomy]

theorem incrementBy?_of_full (full : m.isFullFor key = true) (c : Choice) :
    incrementBy? c m now key window =
      (makeRoomBy? c m now).map fun roomy => (1, roomy.put key ⟨1, now + window⟩) := by
  rw [incrementBy?, live?_of_isFullFor full now]
  simp only [full, if_true]
  cases makeRoomBy? c m now <;> rfl

/-! ### The choice of the memory itself -/

section Sorted

variable {α : Type} {place : Nat} {l : List (Instant × α)}

theorem pairwise_mergeSort_ends (f : α → Instant) (l : List α) :
    (l.mergeSort fun x y => f x ≤ f y).Pairwise fun x y => f x ≤ f y := by
  have sorted : (l.mergeSort fun x y => f x ≤ f y).Pairwise
      fun x y => decide (f x ≤ f y) = true := by
    refine List.pairwise_mergeSort (fun x y z hxy hyz => ?_) (fun x y => ?_) l
    · exact decide_eq_true (Nat.le_trans (of_decide_eq_true hxy) (of_decide_eq_true hyz))
    · simpa using Nat.le_total (f x) (f y)
  exact sorted.imp of_decide_eq_true

theorem le_of_mem_take_of_pairwise (sorted : l.Pairwise fun x y => x.1 ≤ y.1) {x : Instant × α}
    (hx : l[place]? = some x) {y : Instant × α} (hy : y ∈ l.take place) : y.1 ≤ x.1 := by
  obtain ⟨inside, rfl⟩ := List.getElem?_eq_some_iff.mp hx
  rw [← List.take_append_drop place l, List.pairwise_append] at sorted
  refine sorted.2.2 y hy _ ?_
  rw [List.drop_eq_getElem_cons inside]
  exact List.mem_cons_self

theorem le_of_mem_drop_of_pairwise (sorted : l.Pairwise fun x y => x.1 ≤ y.1) {x : Instant × α}
    (hx : l[place]? = some x) {y : Instant × α} (hy : y ∈ l.drop place) : x.1 ≤ y.1 := by
  obtain ⟨inside, rfl⟩ := List.getElem?_eq_some_iff.mp hx
  rw [← List.take_append_drop place l, List.pairwise_append] at sorted
  have behind := sorted.2.1
  rw [List.drop_eq_getElem_cons inside] at behind hy
  rcases List.mem_cons.mp hy with rfl | later
  · exact Nat.le_refl _
  · exact (List.pairwise_cons.mp behind).1 y later

end Sorted

/-- The choice of `makeRoom`, which sorts the entries by the ends of their
windows. -/
def Choice.sorted : Choice where
  listed l := l.mergeSort fun p q => p.2.expiresAt ≤ q.2.expiresAt
  perm_listed l := l.mergeSort_perm _
  select _ l := l.mergeSort fun x y => x.1 ≤ y.1
  perm_select _ l := l.mergeSort_perm _
  before _ l _ hx _ hy := le_of_mem_take_of_pairwise (pairwise_mergeSort_ends Prod.fst l) hx hy
  after _ l _ hx _ hy := le_of_mem_drop_of_pairwise (pairwise_mergeSort_ends Prod.fst l) hx hy

theorem leftBy_sorted {entries : List (String × Entry)} (h : (Assoc.keys entries).Nodup)
    (excess : Nat) :
    leftBy .sorted excess entries =
      (entries.mergeSort fun p q => p.2.expiresAt ≤ q.2.expiresAt).drop excess := by
  set listed := entries.mergeSort fun p q => p.2.expiresAt ≤ q.2.expiresAt with hlisted
  have ends : (listed.map ending).mergeSort (fun x y => x.1 ≤ y.1) = listed.map ending := by
    have sorted := pairwise_mergeSort_ends (fun p : String × Entry => p.2.expiresAt) entries
    refine List.mergeSort_of_pairwise (List.pairwise_map.mpr ?_)
    exact sorted.imp fun le => decide_eq_true le
  have keys : (listed.map Prod.fst).Nodup :=
    ((entries.mergeSort_perm _).map Prod.fst).nodup_iff.mpr h
  have names : ((listed.map ending).take excess).map Prod.snd =
      (listed.take excess).map Prod.fst := by
    rw [← List.map_take, List.map_map]
    rfl
  rw [← filter_not_mem_take keys excess]
  show (listed.filter fun p => !((((listed.map ending).mergeSort
    fun x y => x.1 ≤ y.1).take excess).map Prod.snd).contains p.1) = _
  rw [ends, names]

theorem makeRoomBy?_sorted (h : m.WellKeyed) (room : 1 ≤ m.capacity) (now : Instant) :
    makeRoomBy? .sorted m now = some (m.makeRoom now) := by
  rw [makeRoom]
  by_cases few : (m.purge now).size ≤ m.target
  · rw [makeRoomBy?_of_le room few]
    exact congrArg some (if_pos few).symm
  · rw [makeRoomBy?_of_lt room (Nat.lt_of_not_le few), evictBy?_eq (Nat.lt_of_not_le few),
      leftBy_sorted (h.purge now)]
    exact congrArg some (if_neg few).symm

/-- The memory counts by this choice. -/
theorem incrementBy?_sorted (h : m.WellKeyed) (room : 1 ≤ m.capacity) (now : Instant)
    (key : String) (window : Span) :
    incrementBy? .sorted m now key window = some (m.increment now key window) := by
  cases full : m.isFullFor key with
  | false => exact incrementBy?_of_not_full full .sorted
  | true =>
      rw [incrementBy?_of_full full, makeRoomBy?_sorted h room, increment,
        live?_of_isFullFor full now]
      simp [full]

end Memory

end Gatehouse
