import Gatehouse.Text.Decimal

/-!
Numbers that are written in decimal and read again.

Reading goes digit by digit against a bound and only ever grows its value, so a
number within the bound is read whole (`readDigits_eq_ofDigitChars`), and the
digits that a number is written with are read as that number (`readNat_ofNat`).

Which texts are numbers within a bound is said by `Spells`, and why another one is
none by `Misspells`; the reader agrees with both (`readNat_eq_ok_iff`,
`readNat_eq_error_iff`).
-/

namespace Gatehouse.Text.Decimal

theorem le_ofDigitChars (cs : List Char) (value : Nat) : value ≤ Nat.ofDigitChars 10 cs value := by
  induction cs generalizing value with
  | nil => exact Nat.le_refl value
  | cons c rest ih =>
      rw [Nat.ofDigitChars_cons]
      exact Nat.le_trans (by omega) (ih (10 * value + (c.toNat - '0'.toNat)))

/-- The value of some digits and one more. -/
def more (value : Nat) (c : Char) : Nat :=
  10 * value + (c.toNat - '0'.toNat)

theorem ofDigitChars_cons (c : Char) (cs : List Char) (value : Nat) :
    Nat.ofDigitChars 10 (c :: cs) value = Nat.ofDigitChars 10 cs (more value c) :=
  Nat.ofDigitChars_cons ..

theorem readDigits_cons (bound value : Nat) (past : Fault) (c : Char) (rest : List Char) :
    readDigits bound past value (c :: rest) =
      if c.isDigit then
        if more value c ≤ bound then readDigits bound past (more value c) rest else .error past
      else .error .invalidDigit := by
  rw [readDigits, digit?]
  cases c.isDigit <;> rfl

/-- Digits take the value on to the number that they stand for, if that is within the bound. -/
theorem readDigits_append {bound value : Nat} (past : Fault) {digits : List Char}
    (known : ∀ c ∈ digits, c.isDigit = true) (within : Nat.ofDigitChars 10 digits value ≤ bound)
    (rest : List Char) : readDigits bound past value (digits ++ rest) =
      readDigits bound past (Nat.ofDigitChars 10 digits value) rest := by
  induction digits generalizing value with
  | nil => rfl
  | cons c later ih =>
      rw [ofDigitChars_cons] at within ⊢
      rw [List.cons_append, readDigits_cons, if_pos (known c List.mem_cons_self),
        if_pos (Nat.le_trans (le_ofDigitChars later _) within)]
      exact ih (fun c mem => known c (List.mem_cons_of_mem _ mem)) within

/-- Digits are read as the number that they stand for, if that is within the bound. -/
theorem readDigits_eq_ofDigitChars {bound value : Nat} (past : Fault) {cs : List Char}
    (digits : ∀ c ∈ cs, c.isDigit = true) (within : Nat.ofDigitChars 10 cs value ≤ bound) :
    readDigits bound past value cs = .ok (Nat.ofDigitChars 10 cs value) := by
  have whole := readDigits_append past digits within []
  rwa [List.append_nil] at whole

/-- A number that is read is within the bound. -/
theorem readNat_le {bound n : Nat} {s : String} (read : readNat bound s = .ok n) : n ≤ bound := by
  unfold readNat at read
  split at read
  · cases read
  · cases read
  · exact readDigits_le (Nat.zero_le bound) read
  · exact readDigits_le (Nat.zero_le bound) read

theorem isDigit_of_mem_ofNat {n : Nat} {c : Char} (h : c ∈ (ofNat n).toList) :
    c.isDigit = true := by
  rw [ofNat, String.toList_ofList] at h
  exact Nat.isDigit_of_mem_toDigits (by decide) (by decide) h

/-- A written number within the bound is read back. -/
theorem readNat_ofNat {bound n : Nat} (within : n ≤ bound) : readNat bound (ofNat n) = .ok n := by
  have digits := fun c => isDigit_of_mem_ofNat (n := n) (c := c)
  have written : (ofNat n).toList = Nat.toDigits 10 n := by rw [ofNat, String.toList_ofList]
  have value : Nat.ofDigitChars 10 (Nat.toDigits 10 n) 0 = n := Nat.ofDigitChars_ten_toDigits
  rw [written] at digits
  rw [readNat, written]
  -- No number is written as nothing or with a sign, so only the last case is left.
  split
  · rename_i empty
    exact absurd empty Nat.toDigits_ne_nil
  · rename_i sign
    exact absurd (digits '+' (sign ▸ List.mem_cons_self)) (by decide)
  · rename_i sign
    exact absurd (digits '+' (sign ▸ List.mem_cons_self)) (by decide)
  · rw [readDigits_eq_ofDigitChars .tooLarge digits (value.symm ▸ within), value]

/-! ### What is read -/

/-- The characters of a text behind one `+`, if it begins with one. -/
def unsigned (s : String) : List Char :=
  match s.toList with
  | '+' :: rest => rest
  | cs => cs

/-- The text is a number: digits, with a `+` in front or without. -/
structure Spells (s : String) (n : Nat) : Prop where
  filled : unsigned s ≠ []
  digits : ∀ c ∈ unsigned s, c.isDigit = true
  value : Nat.ofDigitChars 10 (unsigned s) 0 = n

/-- Where characters stop to be digits that take a value on within a bound: at the first that is
no digit, or where the bound is passed before. -/
inductive Stops (bound value : Nat) : List Char → Fault → Prop
  | digit {digits rest : List Char} {c : Char} : (∀ d ∈ digits, d.isDigit = true) →
      Nat.ofDigitChars 10 digits value ≤ bound → c.isDigit = false →
      Stops bound value (digits ++ c :: rest) .invalidDigit
  | past {digits rest : List Char} : (∀ d ∈ digits, d.isDigit = true) →
      bound < Nat.ofDigitChars 10 digits value → Stops bound value (digits ++ rest) .tooLarge

/-- Why a text is no number within a bound. -/
inductive Misspells (bound : Nat) : String → Fault → Prop
  | empty : Misspells bound "" .empty
  | bare : Misspells bound "+" .invalidDigit
  | stops {s : String} {fault : Fault} : Stops bound 0 (unsigned s) fault →
      Misspells bound s fault

section Read

variable {bound value n : Nat} {fault : Fault} {cs : List Char} {s : String}

theorem readDigits_eq_ok_iff (past : Fault) (within : value ≤ bound) :
    readDigits bound past value cs = .ok n ↔
      (∀ c ∈ cs, c.isDigit = true) ∧ Nat.ofDigitChars 10 cs value = n ∧ n ≤ bound := by
  constructor
  · intro read
    have fits := readDigits_le within read
    suffices spelled : (∀ c ∈ cs, c.isDigit = true) ∧ Nat.ofDigitChars 10 cs value = n from
      ⟨spelled.1, spelled.2, fits⟩
    induction cs generalizing value with
    | nil =>
        cases read
        exact ⟨fun _ hc => absurd hc List.not_mem_nil, rfl⟩
    | cons c rest ih =>
        rw [readDigits_cons] at read
        split at read
        · rename_i digit
          split at read
          · rename_i next
            obtain ⟨digits, same⟩ := ih next read
            exact ⟨List.forall_mem_cons.mpr ⟨digit, digits⟩, (ofDigitChars_cons ..).trans same⟩
          · cases read
        · cases read
  · rintro ⟨digits, rfl, fits⟩
    exact readDigits_eq_ofDigitChars past digits fits

/-- One more digit in front changes nothing about where the others stop. -/
theorem Stops.cons {c : Char} (digit : c.isDigit = true)
    (stops : Stops bound (more value c) cs fault) : Stops bound value (c :: cs) fault := by
  have front {digits : List Char} (known : ∀ d ∈ digits, d.isDigit = true) :
      ∀ d ∈ c :: digits, d.isDigit = true := List.forall_mem_cons.mpr ⟨digit, known⟩
  cases stops with
  | @digit digits rest d known fits other =>
      rw [← ofDigitChars_cons] at fits
      exact @Stops.digit _ _ _ rest _ (front known) fits other
  | @past digits rest known beyond =>
      rw [← ofDigitChars_cons] at beyond
      exact Stops.past (front known) beyond

theorem readDigits_eq_error_iff (within : value ≤ bound) :
    readDigits bound .tooLarge value cs = .error fault ↔ Stops bound value cs fault := by
  constructor
  · intro read
    induction cs generalizing value with
    | nil => cases read
    | cons c rest ih =>
        rw [readDigits_cons] at read
        split at read
        · rename_i digit
          split at read
          · rename_i next
            exact (ih next read).cons digit
          · rename_i beyond
            cases read
            have known : ∀ d ∈ [c], d.isDigit = true := List.forall_mem_singleton.mpr digit
            exact Stops.past known (Nat.lt_of_not_le beyond)
        · rename_i other
          cases read
          have unread : ∀ d ∈ ([] : List Char), d.isDigit = true := fun _ hd => nomatch hd
          exact @Stops.digit _ _ [] rest c unread within (Bool.eq_false_iff.mpr other)
  · rintro (⟨known, fits, other⟩ | ⟨known, beyond⟩)
    · rw [readDigits_append .tooLarge known fits, readDigits_cons, other,
        if_neg Bool.false_ne_true]
    · rename_i digits rest
      induction digits generalizing value with
      | nil => exact absurd within (Nat.not_le.mpr beyond)
      | cons c later ih =>
          obtain ⟨digit, known⟩ := List.forall_mem_cons.mp known
          rw [List.cons_append, readDigits_cons, if_pos digit]
          by_cases next : more value c ≤ bound
          · rw [if_pos next]
            exact ih next known (ofDigitChars_cons c later value ▸ beyond)
          · rw [if_neg next]

theorem Stops.ne_nil (within : value ≤ bound) (stops : Stops bound value cs fault) : cs ≠ [] := by
  rintro rfl
  have stopped := (readDigits_eq_error_iff within).mpr stops
  cases stopped

theorem readNat_eq (bound : Nat) (s : String) :
    readNat bound s = if s = "" then .error .empty else
      if s = "+" then .error .invalidDigit else readDigits bound .tooLarge 0 (unsigned s) := by
  by_cases empty : s = ""
  · rw [empty]
    rfl
  by_cases bare : s = "+"
  · rw [bare]
    rfl
  rw [if_neg empty, if_neg bare, readNat, unsigned]
  split
  · rename_i nothing
    exact absurd (String.toList_eq_nil_iff.mp nothing) empty
  · rename_i sign
    exact absurd (String.toList_inj.mp sign) bare
  · rename_i rest _ signed
    rw [signed]
    rfl
  · rename_i first _ unsigned
    split
    · rename_i rest signed
      exact absurd signed (unsigned rest)
    · rfl

theorem unsigned_eq_nil (h : unsigned s = []) : s = "" ∨ s = "+" := by
  unfold unsigned at h
  split at h
  · rename_i signed
    rw [h] at signed
    exact .inr (String.toList_inj.mp signed)
  · exact .inl (String.toList_eq_nil_iff.mp h)

theorem readNat_eq_ok_iff : readNat bound s = .ok n ↔ Spells s n ∧ n ≤ bound := by
  rw [readNat_eq]
  constructor
  · intro read
    split at read
    · cases read
    · rename_i filled
      split at read
      · cases read
      · rename_i signless
        obtain ⟨digits, value, fits⟩ := (readDigits_eq_ok_iff _ (Nat.zero_le _)).mp read
        refine ⟨⟨fun empty => ?_, digits, value⟩, fits⟩
        exact (unsigned_eq_nil empty).elim filled signless
  · rintro ⟨⟨filled, digits, value⟩, fits⟩
    have empty : s ≠ "" := fun h => filled (h ▸ rfl)
    have bare : s ≠ "+" := fun h => filled (h ▸ rfl)
    rw [if_neg empty, if_neg bare]
    exact (readDigits_eq_ok_iff _ (Nat.zero_le _)).mpr ⟨digits, value, fits⟩

theorem Spells.unique {m : Nat} (h : Spells s m) (h' : Spells s n) : m = n :=
  h.value.symm.trans h'.value

theorem readNat_eq_error_iff : readNat bound s = .error fault ↔ Misspells bound s fault := by
  rw [readNat_eq]
  constructor
  · intro read
    split at read
    · rename_i empty
      cases read
      exact empty ▸ .empty
    · split at read
      · rename_i bare
        cases read
        exact bare ▸ .bare
      · exact .stops ((readDigits_eq_error_iff (Nat.zero_le _)).mp read)
  · rintro (_ | _ | stops)
    · rfl
    · rfl
    · have filled := stops.ne_nil (Nat.zero_le bound)
      have empty : s ≠ "" := fun h => filled (h ▸ rfl)
      have bare : s ≠ "+" := fun h => filled (h ▸ rfl)
      rw [if_neg empty, if_neg bare]
      exact (readDigits_eq_error_iff (Nat.zero_le _)).mpr stops

end Read

end Gatehouse.Text.Decimal
