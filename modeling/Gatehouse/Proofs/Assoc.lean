import Gatehouse.Metrics
import Mathlib.Data.List.Nodup

/-!
Association lists in which each key stands once.

Counters, tallies and limits are kept in such lists, and all of them put a value
under a key by the same step: drop the key and set the new pair in front.
-/

namespace Gatehouse.Assoc

/-- The keys of a list in order. -/
def keys {κ α : Type} (l : List (κ × α)) : List κ :=
  l.map Prod.fst

section Lookup

variable {κ α : Type} [BEq κ] [LawfulBEq κ]

theorem lookup_cons_ne {k k' : κ} (h : k' ≠ k) (v : α) (l : List (κ × α)) :
    ((k, v) :: l).lookup k' = l.lookup k' := by
  have hk : (k' == k) = false := beq_eq_false_iff_ne.mpr h
  rw [List.lookup_cons, hk]

/-- Dropping a key hides it and nothing else. -/
theorem lookup_erase (k k' : κ) (l : List (κ × α)) :
    (l.filter fun p => p.1 != k).lookup k' = if k' == k then none else l.lookup k' := by
  induction l with
  | nil => simp
  | cons p rest ih =>
      obtain ⟨a, v⟩ := p
      by_cases ha : a = k
      · subst ha
        rw [List.filter_cons_of_neg (by simp), ih]
        by_cases hk : k' = a
        · simp [hk]
        · rw [lookup_cons_ne hk]
      · rw [List.filter_cons_of_pos (by simpa using ha)]
        by_cases hk : k' = a
        · subst hk
          simp [ha]
        · rw [lookup_cons_ne hk, lookup_cons_ne hk, ih]

/-- Putting a value under a key shows it there and changes nothing else. -/
theorem lookup_put (k k' : κ) (v : α) (l : List (κ × α)) :
    ((k, v) :: l.filter fun p => p.1 != k).lookup k' = if k' == k then some v else l.lookup k' := by
  by_cases hk : k' = k
  · simp [hk]
  · rw [lookup_cons_ne hk, lookup_erase]
    simp [hk]

theorem mem_keys {k : κ} {l : List (κ × α)} : k ∈ keys l ↔ (l.lookup k).isSome := by
  simp [keys]

theorem lookup_eq_none {k : κ} {l : List (κ × α)} : l.lookup k = none ↔ k ∉ keys l := by
  rw [mem_keys, Option.not_isSome_iff_eq_none]

omit [LawfulBEq κ] in
theorem lookup_map {β : Type} (f : α → β) (k : κ) (l : List (κ × α)) :
    (l.map fun p => (p.1, f p.2)).lookup k = (l.lookup k).map f := by
  induction l with
  | nil => rfl
  | cons p rest ih =>
      rw [List.map_cons, List.lookup_cons, List.lookup_cons, ih]
      cases k == p.1 <;> rfl

/-- As each key stands once, what is found under a key is what stands there. -/
theorem mem_iff_lookup {l : List (κ × α)} (h : (keys l).Nodup) {k : κ} {v : α} :
    (k, v) ∈ l ↔ l.lookup k = some v := by
  induction l with
  | nil => simp
  | cons p rest ih =>
      obtain ⟨a, u⟩ := p
      obtain ⟨hnot, hrest⟩ := List.nodup_cons.mp h
      by_cases hk : k = a
      · subst hk
        have absent : (k, v) ∉ rest := by
          intro mem
          have again : k ∈ keys rest := List.mem_map_of_mem mem
          exact hnot again
        simp [absent, eq_comm]
      · rw [lookup_cons_ne hk, ← ih hrest, List.mem_cons]
        simp [hk]

/-- What is found does not depend on the order, as each key stands once. -/
theorem lookup_perm {l l' : List (κ × α)} (h : (keys l).Nodup) (perm : l.Perm l') (k : κ) :
    l.lookup k = l'.lookup k := by
  have h' : (keys l').Nodup := (perm.map Prod.fst).nodup_iff.mp h
  refine Option.ext fun v => ?_
  rw [← mem_iff_lookup h, ← mem_iff_lookup h', perm.mem_iff]

/-- A filter by the keys that keeps a key keeps what is found there. -/
theorem lookup_filter_key {p : κ → Bool} {k : κ} (kept : p k = true) (l : List (κ × α)) :
    (l.filter fun e => p e.1).lookup k = l.lookup k := by
  induction l with
  | nil => rfl
  | cons e rest ih =>
      obtain ⟨a, v⟩ := e
      by_cases hk : k = a
      · subst hk
        simp [kept]
      · rw [lookup_cons_ne hk, ← ih, List.filter_cons]
        split
        · rw [lookup_cons_ne hk]
        · rfl

/-- Filtering by the values filters what is found, as each key stands once. -/
theorem lookup_filter {l : List (κ × α)} (h : (keys l).Nodup) (p : α → Bool) (k : κ) :
    (l.filter fun e => p e.2).lookup k = (l.lookup k).filter p := by
  induction l with
  | nil => simp
  | cons e rest ih =>
      obtain ⟨a, v⟩ := e
      obtain ⟨hnot, hrest⟩ := List.nodup_cons.mp h
      by_cases hk : k = a
      · subst hk
        have hlate : (rest.filter fun e => p e.2).lookup k = none := by
          rw [ih hrest, lookup_eq_none.mpr hnot, Option.filter_none]
        by_cases hp : p v = true
        · simp [Option.filter_some, hp]
        · simp [Option.filter_some, hp, hlate]
      · rw [lookup_cons_ne hk, ← ih hrest, List.filter_cons]
        split
        · rw [lookup_cons_ne hk]
        · rfl

/-- Of what is read of some things, that under a key is read of the first thing that
gives a value to the key. -/
theorem lookup_filterMap_eq_some_iff {β : Type} {f : β → Option (κ × α)} {l : List β} {k : κ}
    {v : α} : (l.filterMap f).lookup k = some v ↔
      ∃ front x back, l = front ++ x :: back ∧ f x = some (k, v) ∧
        ∀ y ∈ front, ∀ w, f y ≠ some (k, w) := by
  constructor
  · intro h
    obtain ⟨before, after, same, others⟩ := List.lookup_eq_some_iff.mp h
    obtain ⟨l₁, l₂, rfl, rfl, later⟩ := List.filterMap_eq_append_iff.mp same
    obtain ⟨front, x, back, rfl, silent, read, -⟩ := List.filterMap_eq_cons_iff.mp later
    refine ⟨l₁ ++ front, x, back, by rw [List.append_assoc], read, ?_⟩
    intro y hy w given
    rcases List.mem_append.mp hy with early | late
    · have ne := others _ (List.mem_filterMap.mpr ⟨y, early, given⟩)
      exact absurd ne (by simp)
    · rw [silent y late] at given
      cases given
  · rintro ⟨front, x, back, rfl, read, others⟩
    refine List.lookup_eq_some_iff.mpr ⟨front.filterMap f, back.filterMap f, ?_, ?_⟩
    · rw [List.filterMap_append, List.filterMap_cons_some read]
    · rintro ⟨k', w⟩ mem
      obtain ⟨y, hy, given⟩ := List.mem_filterMap.mp mem
      refine bne_iff_ne.mpr fun same => others y hy w ?_
      rw [given, same]

end Lookup

section Keys

variable {κ α : Type}

theorem nodup_keys_filter {l : List (κ × α)} (h : (keys l).Nodup) (p : κ × α → Bool) :
    (keys (l.filter p)).Nodup :=
  h.sublist (List.filter_sublist.map _)

theorem nodup_keys_put [BEq κ] [LawfulBEq κ] {l : List (κ × α)} (h : (keys l).Nodup) (k : κ)
    (v : α) : (keys ((k, v) :: l.filter fun p => p.1 != k)).Nodup := by
  have hfront : k ∉ keys (l.filter fun p => p.1 != k) := by
    rw [← lookup_eq_none, lookup_erase]
    simp
  exact List.nodup_cons.mpr ⟨hfront, nodup_keys_filter h _⟩

end Keys

end Gatehouse.Assoc

namespace Gatehouse.Tally

/-- Counting a label adds one to it and to no other. -/
theorem get_bump (t : Tally) (label l : String) :
    (t.bump label).get l = if l = label then t.get label + 1 else t.get l := by
  rw [bump, get, Assoc.lookup_put]
  by_cases same : l = label <;> simp [same, get]

theorem total_cons (p : String × Nat) (t : Tally) : total (p :: t) = p.2 + t.total := by
  have onto : ∀ (t : Tally) (n : Nat), t.foldl (fun sum p => sum + p.2) n = n + t.total := by
    intro t
    induction t with
    | nil => exact fun n => rfl
    | cons p rest ih =>
        intro n
        have first : total (p :: rest) = p.2 + total rest := by
          rw [total, List.foldl_cons, ih, Nat.zero_add]
        rw [List.foldl_cons, ih, first, Nat.add_assoc]
  rw [total, List.foldl_cons, onto, Nat.zero_add]

/-- What stands under a label and what stands under the others is all. -/
theorem total_erase {t : Tally} (once : (Assoc.keys t).Nodup) (label : String) :
    total (t.filter fun p => p.1 != label) + t.get label = t.total := by
  induction t with
  | nil => rfl
  | cons p rest ih =>
      obtain ⟨own, n⟩ := p
      obtain ⟨absent, others⟩ := List.nodup_cons.mp once
      by_cases same : own = label
      · subst same
        have unseen : rest.filter (fun p => p.1 != own) = rest := by
          refine List.filter_eq_self.mpr fun p mem => ?_
          have again : p.1 ∈ Assoc.keys rest := List.mem_map_of_mem mem
          simpa using fun here : p.1 = own => absent (here ▸ again)
        rw [List.filter_cons_of_neg (by simp), unseen, total_cons]
        simp [get, Nat.add_comm]
      · have elsewhere : Tally.get ((own, n) :: rest) label = Tally.get rest label := by
          rw [get, get, Assoc.lookup_cons_ne (Ne.symm same)]
        rw [List.filter_cons_of_pos (by simpa using same), elsewhere, total_cons, total_cons,
          Nat.add_assoc, ih others]

/-- Counting adds one to the total. -/
theorem total_bump {t : Tally} (once : (Assoc.keys t).Nodup) (label : String) :
    (t.bump label).total = t.total + 1 := by
  rw [bump, total_cons, ← total_erase once label]
  omega

theorem nodup_keys_bump {t : Tally} (once : (Assoc.keys t).Nodup) (label : String) :
    (Assoc.keys (t.bump label)).Nodup :=
  Assoc.nodup_keys_put once label _

end Gatehouse.Tally
