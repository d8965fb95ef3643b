import Gatehouse.Proofs.Assoc
import Gatehouse.Store.Memory
import Mathlib.Data.List.Dedup
import Mathlib.Data.List.Perm.Subperm

/-!
What a memory holds under a key.

Every operation of a memory is described by what it does to the entry of each
key. As long as no more distinct keys occur than there is room for, a memory is
never full for a new key, so counting a key changes the entry of that key and no
other (`increment_eq_put`).
-/

namespace Gatehouse

/-- The entry of a key after one more request: a live entry counts on, and in the
place of any other a window opens. -/
def Entry.next (now : Instant) (window : Span) : Option Entry → Entry
  | some e => { e with count := e.count + 1 }
  | none => ⟨1, now + window⟩

namespace Memory

/-- Each key stands once. -/
def WellKeyed (m : Memory) : Prop :=
  (Assoc.keys m.entries).Nodup

/-- Every key of the memory is one of these. -/
def KeysIn (m : Memory) (keys : List String) : Prop :=
  ∀ key ∈ Assoc.keys m.entries, key ∈ keys

variable {m : Memory} {now : Instant} {window : Span} {keys : List String}

theorem wellKeyed_empty (capacity : Nat) : (empty capacity).WellKeyed :=
  List.nodup_nil

theorem WellKeyed.put (h : m.WellKeyed) (key : String) (e : Entry) : (m.put key e).WellKeyed :=
  Assoc.nodup_keys_put h key e

theorem WellKeyed.purge (h : m.WellKeyed) (now : Instant) : (m.purge now).WellKeyed :=
  Assoc.nodup_keys_filter h _

theorem find?_put (m : Memory) (key k : String) (e : Entry) :
    (m.put key e).find? k = if k = key then some e else m.find? k := by
  simpa [find?, Memory.put] using Assoc.lookup_put key k e m.entries

/-- A purge takes away what reads as absent, and nothing else. -/
theorem find?_purge (h : m.WellKeyed) (now : Instant) (key : String) :
    (m.purge now).find? key = m.live? now key :=
  Assoc.lookup_filter h _ key

section Live

variable {key : String}

/-- Nothing that is live is left of a key that is not in the memory. -/
theorem live?_eq_none (h : m.find? key = none) (now : Instant) : m.live? now key = none := by
  rw [live?, h, Option.filter_none]

theorem live?_eq_some_iff {e : Entry} :
    m.live? now key = some e ↔ m.find? key = some e ∧ now < e.expiresAt := by
  rw [live?, Option.filter_eq_some_iff, Entry.isLive, decide_eq_true_iff]

/-- A purge changes nothing that is live. -/
theorem live?_purge (h : m.WellKeyed) (now : Instant) (key : String) :
    (m.purge now).live? now key = m.live? now key := by
  refine Option.ext fun e => ?_
  rw [live?_eq_some_iff, find?_purge h]
  constructor
  · rintro ⟨live, -⟩
    exact live
  · intro live
    exact ⟨live, (live?_eq_some_iff.mp live).2⟩

theorem live?_put (m : Memory) (key k : String) (e : Entry) :
    (m.put key e).live? now k =
      if k = key then (some e).filter (Entry.isLive now) else m.live? now k := by
  rw [live?, find?_put]
  split <;> rfl

/-- What is live later was live before, and does not end in between. -/
theorem live?_add (m : Memory) (now : Instant) (d : Span) (key : String) :
    m.live? (now + d) key = (m.live? now key).filter (Entry.isLive (now + d)) := by
  refine Option.ext fun e => ?_
  rw [live?_eq_some_iff, Option.filter_eq_some_iff, live?_eq_some_iff, Entry.isLive,
    decide_eq_true_iff]
  constructor
  · rintro ⟨found, live⟩
    exact ⟨⟨found, Nat.lt_of_le_of_lt (Nat.le_add_right now d) live⟩, live⟩
  · rintro ⟨⟨found, -⟩, live⟩
    exact ⟨found, live⟩

end Live

theorem KeysIn.put (h : m.KeysIn keys) {key : String} (mem : key ∈ keys) (e : Entry) :
    (m.put key e).KeysIn keys := by
  intro k hk
  rcases List.mem_cons.mp hk with rfl | hrest
  · exact mem
  · exact h k ((List.filter_sublist.map _).subset hrest)

theorem KeysIn.purge (h : m.KeysIn keys) (now : Instant) : (m.purge now).KeysIn keys :=
  fun k hk => h k ((List.filter_sublist.map _).subset hk)

/-- With room for every key that occurs, a memory is full for none of them. -/
theorem isFullFor_eq_false (h : m.WellKeyed) (known : m.KeysIn keys)
    (room : keys.dedup.length ≤ m.capacity) {key : String} (mem : key ∈ keys) :
    m.isFullFor key = false := by
  rw [isFullFor, Bool.and_eq_false_iff]
  by_cases hnew : m.find? key = none
  · right
    have absent : key ∉ Assoc.keys m.entries := Assoc.lookup_eq_none.mp hnew
    have distinct : (key :: Assoc.keys m.entries).Nodup := List.nodup_cons.mpr ⟨absent, h⟩
    have sub : key :: Assoc.keys m.entries ⊆ keys.dedup := by
      intro k hk
      rcases List.mem_cons.mp hk with rfl | hk
      · exact List.mem_dedup.mpr mem
      · exact List.mem_dedup.mpr (known k hk)
    have fits := (distinct.subperm sub).length_le
    simp only [List.length_cons, Assoc.keys, List.length_map] at fits
    exact decide_eq_false (by simp only [size]; omega)
  · left
    simpa [Option.ne_none_iff_isSome] using hnew

/-- There is room for each of these keys, and no other key is there. -/
structure Roomy (m : Memory) (keys : List String) : Prop where
  wellKeyed : m.WellKeyed
  known : m.KeysIn keys
  room : keys.dedup.length ≤ m.capacity

section Roomy

variable {key : String}

theorem roomy_empty {capacity : Nat} (room : keys.dedup.length ≤ max 1 capacity) :
    (empty capacity).Roomy keys where
  wellKeyed := wellKeyed_empty capacity
  known _ hk := nomatch hk
  room := room

theorem Roomy.put (h : m.Roomy keys) (mem : key ∈ keys) (e : Entry) :
    (m.put key e).Roomy keys where
  wellKeyed := h.wellKeyed.put key e
  known := h.known.put mem e
  room := h.room

theorem Roomy.purge (h : m.Roomy keys) (now : Instant) : (m.purge now).Roomy keys where
  wellKeyed := h.wellKeyed.purge now
  known := h.known.purge now
  room := h.room

theorem Roomy.isFullFor (h : m.Roomy keys) (mem : key ∈ keys) : m.isFullFor key = false :=
  isFullFor_eq_false h.wellKeyed h.known h.room mem

end Roomy

/-- In a memory that is not full for it, counting a key puts its next entry and
leaves the rest alone. -/
theorem increment_eq_put {key : String} (h : m.isFullFor key = false) :
    m.increment now key window =
      ((Entry.next now window (m.live? now key)).count,
        m.put key (Entry.next now window (m.live? now key))) := by
  unfold increment
  cases m.live? now key with
  | some e => rfl
  | none => simp [h, Entry.next]

/-- What is left of a window right after its key was counted. -/
theorem ttl_put {key : String} {e : Entry} (live : now < e.expiresAt) :
    (m.put key e).ttl now key = e.expiresAt - now := by
  simp [ttl, live?, find?_put, Entry.isLive, Option.filter_some, live]

/-- The next entry is live, if windows have a length. -/
theorem lt_expiresAt_next (open_ : 0 < window) (key : String) :
    now < (Entry.next now window (m.live? now key)).expiresAt := by
  cases h : m.live? now key with
  | none => exact Nat.lt_add_of_pos_right open_
  | some e =>
      obtain ⟨-, live⟩ := Option.filter_eq_some_iff.mp h
      exact of_decide_eq_true live

section Soon

variable {key : String} (soon : ∀ e, m.find? key = some e → e.expiresAt ≤ now + window)

include soon

/-- The next entry ends within a window, if the last one does. -/
theorem expiresAt_next_le : (Entry.next now window (m.live? now key)).expiresAt ≤ now + window := by
  cases live : m.live? now key with
  | none => exact Nat.le_refl _
  | some e => exact soon e (live?_eq_some_iff.mp live).1

/-- What is left of a window is a window at most. -/
theorem ttl_le : m.ttl now key ≤ window := by
  rw [ttl]
  cases live : m.live? now key with
  | none => exact Nat.zero_le _
  | some e => exact Nat.sub_le_iff_le_add'.mpr (soon e (live?_eq_some_iff.mp live).1)

end Soon

/-- An entry ends no later than what is left of its window from now. -/
theorem expiresAt_le_add_ttl {key : String} {e : Entry} (found : m.find? key = some e) :
    e.expiresAt ≤ now + m.ttl now key := by
  by_cases live : now < e.expiresAt
  · rw [ttl, live?_eq_some_iff.mpr ⟨found, live⟩]
    exact Nat.sub_le_iff_le_add'.mp (Nat.le_refl (e.expiresAt - now))
  · exact Nat.le_trans (Nat.le_of_not_lt live) (Nat.le_add_right _ _)

end Memory

end Gatehouse
