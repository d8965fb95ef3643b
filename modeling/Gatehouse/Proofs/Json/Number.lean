import Gatehouse.Json.Number
import Gatehouse.Proofs.Text.Decimal
import Mathlib.Data.List.TakeWhile

/-!
How numbers are written in JSON texts.

A number is a minus if it is negative, its whole part, and behind it a fraction and an
exponent if it has them. `Written` says so without a word on how these are cut off.

* `parts?_eq_some_iff`: a number is written as its parts are.
* `ofParts?_eq_int_iff`: which numbers are whole ones.
-/

namespace Gatehouse.Json.Number

/-! ### Parts -/

/-- At least one digit. -/
def IsDigits (ds : List Char) : Prop :=
  ds ≠ [] ∧ ∀ c ∈ ds, c.isDigit = true

/-- The digits of a whole number: a zero stands alone. -/
def IsWhole (ds : List Char) : Prop :=
  IsDigits ds ∧ (ds.head? = some '0' → ds = ['0'])

/-- A fraction as it is written, if there is one. -/
inductive Fraction : List Char → Option (List Char) → Prop
  | absent : Fraction [] none
  | digits {ds : List Char} (h : IsDigits ds) : Fraction ('.' :: ds) (some ds)

/-- An exponent as it is written, if there is one: whether it is negative, and its digits. -/
inductive Exponent : List Char → Option (Bool × List Char) → Prop
  | absent : Exponent [] none
  | bare {e : Char} {ds : List Char} (mark : e = 'e' ∨ e = 'E') (h : IsDigits ds) :
      Exponent (e :: ds) (some (false, ds))
  | plus {e : Char} {ds : List Char} (mark : e = 'e' ∨ e = 'E') (h : IsDigits ds) :
      Exponent (e :: '+' :: ds) (some (false, ds))
  | minus {e : Char} {ds : List Char} (mark : e = 'e' ∨ e = 'E') (h : IsDigits ds) :
      Exponent (e :: '-' :: ds) (some (true, ds))

/-- A number as it is written without its sign. -/
def Spelled (cs : List Char) (p : Parts) : Prop :=
  IsWhole p.whole ∧ ∃ fraction exponent, Fraction fraction p.fraction ∧
    Exponent exponent p.exponent ∧ cs = p.whole ++ (fraction ++ exponent)

/-- A number as it is written. -/
def Written (signs : List Char) (p : Parts) : Prop :=
  ∃ cs, Spelled cs p ∧ signs = if p.negative then '-' :: cs else cs

/-- No digit is at the front. -/
def NoDigit (cs : List Char) : Prop :=
  ∀ c ∈ cs.head?, c.isDigit = false

variable {cs ds rest : List Char}

theorem digitsOf_append (digits : ∀ c ∈ ds, c.isDigit = true) (ends : NoDigit rest) :
    digitsOf (ds ++ rest) = (ds, rest) := by
  have stops : rest.takeWhile Char.isDigit = [] ∧ rest.dropWhile Char.isDigit = rest := by
    cases rest with
    | nil => exact ⟨rfl, rfl⟩
    | cons c cs =>
        have no := ends c rfl
        exact ⟨List.takeWhile_cons_of_neg (by simp [no]), List.dropWhile_cons_of_neg (by simp [no])⟩
  rw [digitsOf, List.takeWhile_append_of_pos digits, List.dropWhile_append_of_pos digits, stops.1,
    stops.2, List.append_nil]

/-- The digits at the front are cut off, all of them. -/
theorem digitsOf_eq_iff : digitsOf cs = (ds, rest) ↔
    cs = ds ++ rest ∧ (∀ c ∈ ds, c.isDigit = true) ∧ NoDigit rest := by
  constructor
  · intro h
    obtain ⟨rfl, rfl⟩ := Prod.mk.inj h
    refine ⟨List.takeWhile_append_dropWhile.symm, ?_, ?_⟩
    · intro c hc
      exact List.mem_takeWhile_imp hc
    · intro c hc
      have stops := List.head?_dropWhile_not Char.isDigit cs
      rw [Option.mem_def.mp hc] at stops
      exact stops
  · rintro ⟨rfl, digits, ends⟩
    exact digitsOf_append digits ends

theorem wholePart?_eq_some_iff : wholePart? cs = some (ds, rest) ↔
    cs = ds ++ rest ∧ IsWhole ds ∧ NoDigit rest := by
  constructor
  · intro h
    unfold wholePart? at h
    split at h
    · cases h
    · cases h
    · rename_i empty zero
      obtain ⟨same, digits, ends⟩ := digitsOf_eq_iff.mp (Option.some.inj h)
      refine ⟨same, ⟨⟨?_, digits⟩, ?_⟩, ends⟩
      · rintro rfl
        exact empty _ (Option.some.inj h)
      · intro head
        cases ds with
        | nil => cases head
        | cons c ds =>
            obtain rfl := Option.some.inj head
            cases ds with
            | nil => rfl
            | cons d ds => exact absurd (Option.some.inj h) (zero d ds _)
  · rintro ⟨rfl, ⟨⟨filled, digits⟩, alone⟩, ends⟩
    rw [wholePart?, digitsOf_append digits ends]
    split
    · rename_i same
      exact absurd (Prod.mk.inj same).1 filled
    · rename_i same
      obtain ⟨rfl, rfl⟩ := Prod.mk.inj same
      cases alone rfl
    · rfl

theorem fractionPart?_eq_some_iff {f : Option (List Char)} : fractionPart? cs = some (f, rest) ↔
    ∃ fraction, cs = fraction ++ rest ∧ Fraction fraction f ∧
      (f = none → rest.head? ≠ some '.') ∧ (f ≠ none → NoDigit rest) := by
  constructor
  · intro h
    unfold fractionPart? at h
    split at h
    · rename_i cs
      split at h
      · cases h
      · rename_i ds _ filled parts
        cases h
        obtain ⟨rfl, digits, ends⟩ := digitsOf_eq_iff.mp parts
        have written : IsDigits ds := by
          refine ⟨?_, digits⟩
          rintro rfl
          exact filled rfl
        exact ⟨'.' :: ds, rfl, .digits written, nofun, fun _ => ends⟩
    · rename_i point
      cases h
      refine ⟨[], rfl, .absent, fun _ head => ?_, fun filled => absurd rfl filled⟩
      obtain ⟨tail, rfl⟩ := List.head?_eq_some_iff.mp head
      exact point tail rfl
  · rintro ⟨fraction, rfl, written, point, ends⟩
    cases written with
    | absent =>
        unfold fractionPart?
        split
        · rename_i same
          exact absurd (congrArg List.head? same) (point rfl)
        · rfl
    | @digits ds h =>
        rw [List.cons_append, fractionPart?, digitsOf_append h.2 (ends nofun)]
        cases ds with
        | nil => exact absurd rfl h.1
        | cons d ds => rfl

theorem exponentDigits?_eq_some_iff {negative : Bool} {e : Option (Bool × List Char)} :
    exponentDigits? negative ds = some e ↔ IsDigits ds ∧ e = some (negative, ds) := by
  constructor
  · intro h
    unfold exponentDigits? at h
    split at h
    · cases h
    · rename_i found filled parts
      cases h
      obtain ⟨rfl, digits, -⟩ := digitsOf_eq_iff.mp parts
      rw [List.append_nil]
      exact ⟨⟨filled, digits⟩, rfl⟩
    · cases h
  · rintro ⟨⟨filled, digits⟩, rfl⟩
    have ends : NoDigit [] := nofun
    have parts := digitsOf_append digits ends
    rw [List.append_nil] at parts
    rw [exponentDigits?, parts]
    cases ds with
    | nil => exact absurd rfl filled
    | cons d ds => rfl

theorem exponentPart?_cons (c : Char) (cs : List Char) : exponentPart? (c :: cs) =
    if c = 'e' ∨ c = 'E' then
      match cs with
      | '+' :: ds => exponentDigits? false ds
      | '-' :: ds => exponentDigits? true ds
      | ds => exponentDigits? false ds
    else none :=
  rfl

theorem exponentPart?_eq_some_iff {e : Option (Bool × List Char)} :
    exponentPart? cs = some e ↔ Exponent cs e := by
  constructor
  · intro h
    cases cs with
    | nil =>
        cases h
        exact .absent
    | cons c cs =>
        rw [exponentPart?_cons] at h
        split at h
        · rename_i mark
          split at h
          · obtain ⟨digits, rfl⟩ := exponentDigits?_eq_some_iff.mp h
            exact .plus mark digits
          · obtain ⟨digits, rfl⟩ := exponentDigits?_eq_some_iff.mp h
            exact .minus mark digits
          · obtain ⟨digits, rfl⟩ := exponentDigits?_eq_some_iff.mp h
            exact .bare mark digits
        · cases h
  · intro h
    cases h with
    | absent => rfl
    | plus mark digits =>
        rw [exponentPart?, if_pos mark]
        exact exponentDigits?_eq_some_iff.mpr ⟨digits, rfl⟩
    | minus mark digits =>
        rw [exponentPart?, if_pos mark]
        exact exponentDigits?_eq_some_iff.mpr ⟨digits, rfl⟩
    | bare mark digits =>
        rw [exponentPart?_cons, if_pos mark]
        split
        · exact absurd (digits.2 '+' List.mem_cons_self) (by decide)
        · exact absurd (digits.2 '-' List.mem_cons_self) (by decide)
        · exact exponentDigits?_eq_some_iff.mpr ⟨digits, rfl⟩

/-- A number behind its sign. -/
def unsigned? (negative : Bool) (cs : List Char) : Option Parts := do
  let (whole, cs) ← wholePart? cs
  let (fraction, cs) ← fractionPart? cs
  let exponent ← exponentPart? cs
  some ⟨negative, whole, fraction, exponent⟩

theorem parts?_minus (cs : List Char) : parts? ('-' :: cs) = unsigned? true cs :=
  rfl

theorem parts?_of_head (h : cs.head? ≠ some '-') : parts? cs = unsigned? false cs := by
  unfold parts?
  split
  rename_i sign
  split at sign
  · exact absurd rfl h
  · cases sign
    rfl

/-- Neither a digit nor a point is at the front of an exponent. -/
theorem Exponent.front {e : Option (Bool × List Char)} (h : Exponent cs e) :
    NoDigit cs ∧ cs.head? ≠ some '.' := by
  have marks : ∀ c : Char, c = 'e' ∨ c = 'E' → c.isDigit = false ∧ c ≠ '.' := by
    rintro c (rfl | rfl) <;> decide
  cases h with
  | absent => exact ⟨nofun, nofun⟩
  | bare mark | plus mark | minus mark =>
      obtain ⟨digit, point⟩ := marks _ mark
      refine ⟨?_, ?_⟩
      · rintro c ⟨⟩
        exact digit
      · rintro ⟨⟩
        exact point rfl

theorem Fraction.front {f : Option (List Char)} (h : Fraction cs f) (behind : NoDigit rest) :
    NoDigit (cs ++ rest) := by
  cases h with
  | absent => exact behind
  | digits =>
      rintro c ⟨⟩
      decide

theorem Spelled.front {p : Parts} (h : Spelled cs p) : cs.head? ≠ some '-' := by
  obtain ⟨⟨⟨filled, digits⟩, -⟩, fraction, exponent, -, -, rfl⟩ := h
  cases whole : p.whole with
  | nil => exact absurd whole filled
  | cons c ds =>
      rintro ⟨⟩
      exact absurd (digits '-' (whole ▸ List.mem_cons_self)) (by decide)

theorem unsigned?_eq_some_iff {negative : Bool} {p : Parts} :
    unsigned? negative cs = some p ↔ p.negative = negative ∧ Spelled cs p := by
  simp only [unsigned?, Option.bind_eq_bind, Option.bind_eq_some_iff, Prod.exists,
    wholePart?_eq_some_iff, fractionPart?_eq_some_iff, exponentPart?_eq_some_iff,
    Option.some.injEq]
  constructor
  · rintro ⟨whole, _, ⟨rfl, isWhole, -⟩, f, exponent, ⟨fraction, rfl, isFraction, -, -⟩, e,
      isExponent, rfl⟩
    exact ⟨rfl, isWhole, fraction, exponent, isFraction, isExponent, rfl⟩
  · rintro ⟨rfl, isWhole, fraction, exponent, isFraction, isExponent, rfl⟩
    obtain ⟨digit, point⟩ := isExponent.front
    exact ⟨p.whole, _, ⟨rfl, isWhole, isFraction.front digit⟩, p.fraction, exponent,
      ⟨fraction, rfl, isFraction, fun _ => point, fun _ => digit⟩, p.exponent, isExponent, rfl⟩

/-- **A number is written as its parts are.** -/
theorem parts?_eq_some_iff {p : Parts} : parts? cs = some p ↔ Written cs p := by
  by_cases minus : cs.head? = some '-'
  · obtain ⟨rest, rfl⟩ := List.head?_eq_some_iff.mp minus
    rw [parts?_minus, unsigned?_eq_some_iff]
    constructor
    · rintro ⟨negative, spelled⟩
      exact ⟨rest, spelled, by rw [negative, if_pos rfl]⟩
    · rintro ⟨cs, spelled, same⟩
      split at same
      · rename_i negative
        obtain ⟨-, rfl⟩ := List.cons.inj same
        exact ⟨negative, spelled⟩
      · exact absurd (congrArg List.head? same.symm) spelled.front
  · rw [parts?_of_head minus, unsigned?_eq_some_iff]
    constructor
    · rintro ⟨positive, spelled⟩
      exact ⟨cs, spelled, by rw [positive, if_neg Bool.false_ne_true]⟩
    · rintro ⟨rest, spelled, same⟩
      split at same
      · exact absurd (congrArg List.head? same) minus
      · rename_i positive
        subst same
        exact ⟨Bool.eq_false_iff.mpr positive, spelled⟩

theorem Written.digits {signs : List Char} {p : Parts} (h : Written signs p) :
    ∀ c ∈ p.whole, c.isDigit = true := by
  obtain ⟨_, ⟨⟨digits, -⟩, -⟩, -⟩ := h
  exact digits.2

/-! ### Whole numbers -/

open Text

/-- The whole number that is written with digits, if it fits 64 bits, with a sign or without.
Minus zero is none. -/
def IsInt (negative : Bool) (ds : List Char) (i : Int) : Prop :=
  ∃ n : Nat, Nat.ofDigitChars 10 ds 0 = n ∧
    if negative then i = -(n : Int) ∧ 0 < n ∧ n ≤ Decimal.max63 + 1
    else i = n ∧ n ≤ Decimal.max64

theorem IsInt.bounds {negative : Bool} {i : Int} (h : IsInt negative ds i) :
    -(Decimal.max63 + 1 : Int) ≤ i ∧ i ≤ Decimal.max64 := by
  obtain ⟨n, -, h⟩ := h
  split at h
  · obtain ⟨rfl, -, le⟩ := h
    omega
  · obtain ⟨rfl, le⟩ := h
    omega

theorem wholeValue?_eq_some_iff {p : Parts} (digits : ∀ c ∈ p.whole, c.isDigit = true) {i : Int} :
    wholeValue? p = some i ↔
      p.fraction = none ∧ p.exponent = none ∧ IsInt p.negative p.whole i := by
  by_cases parts : p.fraction.isSome ∨ p.exponent.isSome
  · rw [wholeValue?, if_pos parts]
    constructor
    · nofun
    · rintro ⟨fraction, exponent, -⟩
      rw [fraction, exponent] at parts
      simp at parts
  · have plain : p.fraction = none ∧ p.exponent = none := by simpa using parts
    rw [wholeValue?, if_neg parts, and_iff_right plain.1, and_iff_right plain.2]
    have half : Decimal.max63 + 1 ≤ Decimal.max64 := by decide
    cases read : Decimal.readDigits Decimal.max64 .tooLarge 0 p.whole with
    | error fault =>
        constructor
        · nofun
        · rintro ⟨n, value, h⟩
          have fits : n ≤ Decimal.max64 := by
            split at h
            · exact Nat.le_trans h.2.2 half
            · exact h.2
          have spelt := Decimal.readDigits_eq_ofDigitChars .tooLarge digits (value ▸ fits)
          cases read.symm.trans spelt
    | ok n =>
        obtain ⟨-, value, fits⟩ :=
          (Decimal.readDigits_eq_ok_iff .tooLarge (Nat.zero_le _)).mp read
        have same : IsInt p.negative p.whole i ↔
            if p.negative then i = -(n : Int) ∧ 0 < n ∧ n ≤ Decimal.max63 + 1
            else i = n ∧ n ≤ Decimal.max64 := by simp [IsInt, value]
        rw [same]
        cases p.negative with
        | false => simp [fits, eq_comm]
        | true =>
            by_cases inside : 0 < n ∧ n ≤ Decimal.max63 + 1
            · simp [inside, Nat.pos_iff_ne_zero.mp inside.1, eq_comm]
            · have outside : ¬ (n ≠ 0 ∧ n ≤ Decimal.max63 + 1) := by
                rwa [← Nat.pos_iff_ne_zero]
              simp [inside, outside]

/-- **A number is a whole one if it has neither fraction nor exponent and fits 64 bits.** -/
theorem ofParts?_eq_int_iff {p : Parts} (digits : ∀ c ∈ p.whole, c.isDigit = true) {i : Int} :
    ofParts? p = some (.int i) ↔
      p.fraction = none ∧ p.exponent = none ∧ IsInt p.negative p.whole i := by
  rw [← wholeValue?_eq_some_iff digits, ofParts?]
  cases wholeValue? p with
  | some k => simp
  | none => cases realValue? p <;> simp

end Gatehouse.Json.Number
