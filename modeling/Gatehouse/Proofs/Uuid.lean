import Gatehouse.Proofs.Text.Percent
import Gatehouse.Uuid

/-!
The spellings of an identifier.

The digits of an identifier stand by themselves, between hyphens, between hyphens in
braces, or between hyphens behind the scheme of a uniform resource name; the letters of
digits and scheme may have either case (`Uuid.Spells`).

* `Uuid.read?_eq_some_iff`: an identifier is read from its spellings and from nothing else.
* `Uuid.write_injective`: what is written tells identifiers apart.
* `Uuid.Spells.decodeText?_eq`: a spelling has no escape in it.
-/

namespace Gatehouse.Uuid

/-- The digits of an identifier, with letters of either case. -/
def Digits (id : Uuid) (ds : List Char) : Prop :=
  ds.map Char.toLower = id.digits.toList.map symbol

/-- The text spells the identifier. -/
inductive Spells (id : Uuid) : List Char → Prop
  | simple {ds : List Char} : id.Digits ds → Spells id ds
  | hyphenated {ds : List Char} : id.Digits ds → Spells id (hyphenate groups ds)
  | braced {ds : List Char} : id.Digits ds →
      Spells id ('\x7b' :: hyphenate groups ds ++ ['\x7d'])
  | named {front ds : List Char} : front.map Char.toLower = scheme → id.Digits ds →
      Spells id (front ++ hyphenate groups ds)

variable {id : Uuid} {cs ds : List Char} {c : Char}

/-! ### Digits -/

theorem toLower_of_wide (wide : ¬ c.toNat < 128) : c.toLower = c := by
  refine dif_neg ?_
  rintro ⟨-, le⟩
  exact wide (Nat.lt_of_le_of_lt (UInt32.le_iff_toNat_le.mp le) (by decide))

theorem digit?_eq_some_iff {d : Fin 16} : digit? c = some d ↔ c.toLower = symbol d := by
  by_cases ascii : c.toNat < 128
  · exact Bytes.forall_ascii (fun c => ∀ d, digit? c = some d ↔ c.toLower = symbol d)
      (by decide +kernel) c ascii d
  · have small : ∀ d, (symbol d).toNat < 128 := by decide
    have past : ∀ e : Char, e.toNat < 128 → ¬ c ≤ e := fun e he le =>
      ascii (Nat.lt_of_le_of_lt (UInt32.le_iff_toNat_le.mp le) he)
    have unknown : digit? c = none := by
      rw [digit?, if_neg fun h => past '9' (by decide) h.2,
        if_neg fun h => past 'f' (by decide) h.2, if_neg fun h => past 'F' (by decide) h.2]
    rw [unknown, toLower_of_wide ascii]
    constructor
    · intro no
      cases no
    · rintro rfl
      exact absurd (small d) ascii

theorem mapM_digit?_eq_some_iff {values : List (Fin 16)} :
    ds.mapM digit? = some values ↔ ds.map Char.toLower = values.map symbol := by
  induction ds generalizing values with
  | nil => cases values <;> simp
  | cons c rest ih =>
      cases values with
      | nil => simp [List.mapM_cons, Option.bind_eq_some_iff]
      | cons d later =>
          simp [List.mapM_cons, Option.bind_eq_some_iff, digit?_eq_some_iff, ih]

theorem ofDigits?_eq_some_iff : ofDigits? ds = some id ↔ id.Digits ds := by
  unfold ofDigits? Digits
  rw [← mapM_digit?_eq_some_iff]
  cases ds.mapM digit? with
  | none => simp
  | some values =>
      obtain ⟨⟨digits, size⟩⟩ := id
      simp only [Option.bind_eq_bind, Option.bind_some, Option.some.injEq]
      constructor
      · intro h
        split at h
        · cases h
          rfl
        · cases h
      · rintro rfl
        simp [size]

theorem Digits.length_eq (h : id.Digits ds) : ds.length = 32 := by
  have same := congrArg List.length h
  simpa using same

/-! ### Hyphens -/

theorem length_hyphenate_groups (h : ds.length = 32) : (hyphenate groups ds).length = 36 := by
  simp [hyphenate, groups, h]

/-- A text that loses hyphens has them between the groups. -/
theorem hyphenate_of_unhyphenate? {ns : List Nat} (h : unhyphenate? ns cs = some ds) :
    hyphenate ns ds = cs := by
  fun_induction unhyphenate? ns cs generalizing ds with
  | case1 cs => exact (Option.some.inj h).symm
  | case2 n cs => exact (Option.some.inj h).symm
  | case3 n ns cs more rest cut ih =>
      obtain ⟨later, read, rfl⟩ := Option.map_eq_some_iff.mp h
      have long : n ≤ cs.length := by
        refine Nat.le_of_not_lt fun short => ?_
        rw [List.drop_eq_nil_of_le (Nat.le_of_lt short)] at cut
        cases cut
      have first : (cs.take n).length = n := List.length_take_of_le long
      rw [hyphenate.eq_3 _ _ _ more, List.take_left' first, List.drop_left' first, ih read, ← cut,
        List.take_append_drop]
  | case4 => cases h

/-- The hyphens between groups are taken out again, if there are digits enough. -/
theorem unhyphenate?_hyphenate {ns : List Nat} (long : ns.foldr (· + ·) 0 ≤ ds.length) :
    unhyphenate? ns (hyphenate ns ds) = some ds := by
  fun_induction hyphenate ns ds with
  | case1 ds => rfl
  | case2 n ds => rfl
  | case3 n ns ds more ih =>
      rw [List.foldr_cons] at long
      have first : (ds.take n).length = n := List.length_take_of_le (by omega)
      have later := ih (by rw [List.length_drop]; omega)
      rw [unhyphenate?.eq_3 _ _ _ more, List.drop_left' first, List.take_left' first]
      simp [later]

theorem ofHyphenated?_eq_some_iff :
    ofHyphenated? cs = some id ↔ ∃ ds, id.Digits ds ∧ cs = hyphenate groups ds := by
  rw [ofHyphenated?, Option.bind_eq_some_iff]
  constructor
  · rintro ⟨ds, cut, read⟩
    exact ⟨ds, ofDigits?_eq_some_iff.mp read, (hyphenate_of_unhyphenate? cut).symm⟩
  · rintro ⟨ds, digits, rfl⟩
    have long : groups.foldr (· + ·) 0 ≤ ds.length := by
      rw [digits.length_eq]
      decide
    exact ⟨ds, unhyphenate?_hyphenate long, ofDigits?_eq_some_iff.mpr digits⟩

/-! ### Spellings -/

theorem length_of_map_toLower {front : List Char} (h : front.map Char.toLower = scheme) :
    front.length = 9 := by
  have nine : scheme.length = 9 := by decide
  rw [← nine, ← h, List.length_map]

/-- A text between braces. -/
theorem eq_of_braces (h : cs.head?.map Char.toNat = some 0x7B ∧
    cs.getLast?.map Char.toNat = some 0x7D) :
    cs = '\x7b' :: (cs.drop 1).dropLast ++ ['\x7d'] := by
  have char : ∀ {c : Char} {n : Nat}, c.toNat = n → c = Char.ofNat n := by
    rintro c n rfl
    exact c.ofNat_toNat.symm
  obtain ⟨first, last⟩ := h
  cases cs with
  | nil => cases first
  | cons a rest =>
      rcases List.eq_nil_or_concat rest with rfl | ⟨inner, z, rfl⟩
      · cases first.symm.trans last
      · rw [List.concat_eq_append, ← List.cons_append, List.getLast?_concat] at last
        rw [char (Option.some.inj first), char (Option.some.inj last), List.concat_eq_append,
          List.drop_one, List.tail_cons, List.dropLast_concat, List.cons_append]

theorem readChars?_of_spells (h : id.Spells cs) : readChars? cs = some id := by
  cases h with
  | simple digits => rw [readChars?, if_pos digits.length_eq, ofDigits?_eq_some_iff.mpr digits]
  | @hyphenated ds digits =>
      have long := length_hyphenate_groups digits.length_eq
      rw [readChars?, if_neg (by omega), if_pos long]
      exact ofHyphenated?_eq_some_iff.mpr ⟨ds, digits, rfl⟩
  | @braced ds digits =>
      have long := length_hyphenate_groups digits.length_eq
      have whole : ('\x7b' :: hyphenate groups ds ++ ['\x7d']).length = 38 := by simp [long]
      have braces : ('\x7b' :: hyphenate groups ds ++ ['\x7d']).head?.map Char.toNat = some 0x7B ∧
          ('\x7b' :: hyphenate groups ds ++ ['\x7d']).getLast?.map Char.toNat = some 0x7D := by
        rw [List.getLast?_concat]
        exact ⟨rfl, rfl⟩
      have inner : (('\x7b' :: hyphenate groups ds ++ ['\x7d']).drop 1).dropLast =
          hyphenate groups ds := by simp
      rw [readChars?, if_neg (by omega), if_neg (by omega), if_pos whole, if_pos braces, inner]
      exact ofHyphenated?_eq_some_iff.mpr ⟨ds, digits, rfl⟩
  | @named front ds schemed digits =>
      have long := length_hyphenate_groups digits.length_eq
      have short := length_of_map_toLower schemed
      have whole : (front ++ hyphenate groups ds).length = 45 := by simp [long, short]
      rw [readChars?, if_neg (by omega), if_neg (by omega), if_neg (by omega),
        List.take_left' short, List.drop_left' short, if_pos ⟨whole, schemed⟩]
      exact ofHyphenated?_eq_some_iff.mpr ⟨ds, digits, rfl⟩

theorem spells_of_readChars? (h : readChars? cs = some id) : id.Spells cs := by
  unfold readChars? at h
  split at h
  · exact .simple (ofDigits?_eq_some_iff.mp h)
  · split at h
    · obtain ⟨ds, digits, rfl⟩ := ofHyphenated?_eq_some_iff.mp h
      exact .hyphenated digits
    · split at h
      · split at h
        · rename_i braces
          obtain ⟨ds, digits, inner⟩ := ofHyphenated?_eq_some_iff.mp h
          rw [eq_of_braces braces, inner]
          exact .braced digits
        · cases h
      · split at h
        · rename_i schemed
          obtain ⟨ds, digits, rest⟩ := ofHyphenated?_eq_some_iff.mp h
          rw [← List.take_append_drop 9 cs, rest]
          exact .named schemed.2 digits
        · cases h

/-- **An identifier is read from its spellings**, and from nothing else. -/
theorem read?_eq_some_iff {s : String} : read? s = some id ↔ id.Spells s.toList :=
  ⟨spells_of_readChars?, readChars?_of_spells⟩

/-- A text spells one identifier at most. -/
theorem Spells.unique {other : Uuid} (h : id.Spells cs) (h' : other.Spells cs) : other = id :=
  Option.some.inj ((readChars?_of_spells h').symm.trans (readChars?_of_spells h))

theorem digits_symbol (id : Uuid) : id.Digits (id.digits.toList.map symbol) := by
  have small : ∀ d, (symbol d).toLower = symbol d := by decide
  simp [Digits, small]

/-- What is written of an identifier spells it. -/
theorem spells_chars (id : Uuid) : id.Spells id.chars :=
  .hyphenated (digits_symbol id)

theorem write_injective {other : Uuid} (h : id.write = other.write) : id = other := by
  have same : id.chars = other.chars := String.ofList_injective h
  exact (spells_chars other).unique (same ▸ spells_chars id)

/-! ### Spellings in paths and keys -/

theorem mem_hyphenate {ns : List Nat} (h : c ∈ hyphenate ns ds) : c = '-' ∨ c ∈ ds := by
  fun_induction hyphenate ns ds with
  | case1 ds => exact .inr h
  | case2 n ds => exact .inr h
  | case3 n ns ds more ih =>
      rcases List.mem_append.mp h with first | later
      · exact .inr (List.mem_of_mem_take first)
      · rcases List.mem_cons.mp later with mark | later
        · exact .inl mark
        · exact (ih later).imp_right List.mem_of_mem_drop

theorem Digits.notMem (h : id.Digits ds) (other : ∀ d, symbol d ≠ c.toLower) : c ∉ ds := by
  intro mem
  have lower : c.toLower ∈ id.digits.toList.map symbol := h ▸ List.mem_map_of_mem mem
  obtain ⟨d, -, same⟩ := List.mem_map.mp lower
  exact other d same

theorem Digits.notMem_hyphenate (h : id.Digits ds) (mark : c ≠ '-')
    (other : ∀ d, symbol d ≠ c.toLower) : c ∉ hyphenate groups ds :=
  fun mem => (mem_hyphenate mem).elim mark (h.notMem other)

theorem colon_notMem_write (id : Uuid) : ':' ∉ id.write.toList := by
  rw [write, String.toList_ofList]
  exact (digits_symbol id).notMem_hyphenate (by decide) (by decide)

theorem Spells.percent_notMem (h : id.Spells cs) : '%' ∉ cs := by
  have between : ∀ {ds}, id.Digits ds → '%' ∉ hyphenate groups ds :=
    fun digits => digits.notMem_hyphenate (by decide) (by decide)
  cases h with
  | simple digits => exact digits.notMem (by decide)
  | hyphenated digits => exact between digits
  | braced digits => simp [between digits]
  | named schemed digits =>
      refine fun mem => (List.mem_append.mp mem).elim (fun front => ?_) (between digits)
      have lower : '%'.toLower ∈ scheme := schemed ▸ List.mem_map_of_mem front
      exact absurd lower (by decide)

/-- A spelling is its own percent decoding. -/
theorem Spells.decodeText?_eq {s : String} (h : id.Spells s.toList) :
    Text.Percent.decodeText? s = some s :=
  Text.Percent.decodeText?_of_not_mem (Text.Percent.sign_notMem_ofText h.percent_notMem)

end Gatehouse.Uuid
