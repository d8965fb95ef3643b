/-!
Finite binary floating-point numbers of 64 bits, in exact arithmetic.

A number is a sign, a significand below `2 ^ 53` and a power of two. Quotients
are rounded to the nearest number, a tie to the even significand. The decimal
text of a number has the fewest digits that still round to it.
-/

namespace Gatehouse

/-- The number `± significand * 2 ^ exponent`. -/
structure Binary64 where
  negative : Bool
  significand : Nat
  exponent : Int
  deriving DecidableEq, Repr

namespace Binary64

/-- The least exponent: that of the numbers nearest to zero. -/
def minExponent : Int := -1074

def maxExponent : Int := 971

def zero (negative : Bool) : Binary64 :=
  ⟨negative, 0, minExponent⟩

/-- The two factors `b ^ p` and `b ^ -p` of a power, one of which is `1`. -/
def scale (b : Nat) (p : Int) : Nat × Nat :=
  (b.pow p.toNat, b.pow (-p).toNat)

/-- A quotient rounded to a whole number, a tie to the even one. -/
def roundQuotient (num den : Nat) : Nat :=
  let q := num / den
  let r := num % den
  if 2 * r < den then q
  else if den < 2 * r then q + 1
  else q + q % 2

/-- The exponent at which the quotient of two positive numbers has fifty-three
bits, or the least exponent where that lies higher. -/
def exponentOf (num den : Nat) : Int :=
  let guess : Int := num.log2 - den.log2 - 52
  let (up, down) := scale 2 guess
  max minExponent (if num * down < (1 <<< 52) * (den * up) then guess - 1 else guess)

/-- The number nearest to a quotient; `none` when that is past the range. -/
def nearest? (negative : Bool) (num den : Nat) : Option Binary64 :=
  if num = 0 then some (zero negative)
  else
    let e := exponentOf num den
    let (up, down) := scale 2 e
    let m := roundQuotient (num * down) (den * up)
    let (m, e) := if m = 1 <<< 53 then (1 <<< 52, e + 1) else (m, e)
    if e ≤ maxExponent then some ⟨negative, m, e⟩ else none

def powerOfTen? (n : Nat) : Option Binary64 :=
  nearest? false (Nat.pow 10 n) 1

/-- The product of two numbers, rounded. -/
def mul? (x y : Binary64) : Option Binary64 :=
  let (up, down) := scale 2 (x.exponent + y.exponent)
  nearest? (x.negative != y.negative) (x.significand * y.significand * up) down

/-- The quotient of two numbers, rounded; `none` when dividing by zero. -/
def div? (x y : Binary64) : Option Binary64 :=
  if y.significand = 0 then none
  else
    let (up, down) := scale 2 (x.exponent - y.exponent)
    nearest? (x.negative != y.negative) (x.significand * up) (y.significand * down)

/-- Half a number's magnitude rounded away from zero to a whole number. -/
def roundMagnitude (x : Binary64) : Nat :=
  let (up, down) := scale 2 x.exponent
  (2 * (x.significand * up) + down) / (2 * down)

/-- `a / b ≤ c / d`, or `<` when `strict`. -/
def quotientLe (strict : Bool) (a b c d : Nat) : Bool :=
  if strict then a * d < c * b else a * d ≤ c * b

/-- Whether `q * 10 ^ p` rounds to `m * 2 ^ e`: whether it lies between the
midpoints to the two neighbours, the midpoints included when `m` is even. -/
def roundsTo (m : Nat) (e : Int) (q : Nat) (p : Int) : Bool :=
  let low := if m = 1 <<< 52 ∧ minExponent < e then 4 * m - 1 else 4 * m - 2
  let high := 4 * m + 2
  let (up, down) := scale 2 (e - 2)
  let (tens, tenths) := scale 10 p
  let strict := m % 2 == 1
  quotientLe strict (low * up) down (q * tens) tenths &&
    quotientLe strict (q * tens) tenths (high * up) down

/-- The multiple of `10 ^ p` that rounds to `m * 2 ^ e` and lies nearest to it,
if one of the two neighbours does. -/
def decimalAt? (m : Nat) (e p : Int) : Option Nat :=
  let (up, down) := scale 2 e
  let (tens, tenths) := scale 10 p
  let num := m * up * tenths
  let den := down * tens
  let q := num / den
  let below := q ≠ 0 ∧ roundsTo m e q p
  let above := roundsTo m e (q + 1) p
  if below ∧ (¬ above ∨ 2 * (num % den) < den ∨ (2 * (num % den) = den ∧ q % 2 = 0)) then some q
  else if above then some (q + 1)
  else none

/-- Search downwards from `10 ^ p` for the coarsest decimal grid that holds a
number which rounds to `m * 2 ^ e`. -/
def shortestFrom (m : Nat) (e : Int) : Nat → Int → Nat × Int
  | 0, p => (m, p)
  | fuel + 1, p =>
      match decimalAt? m e p with
      | some q => (q, p)
      | none => shortestFrom m e fuel (p - 1)

/-- The fewest decimal digits that round to a positive number, and their power
of ten. Seventeen digits always suffice, so the search ends on a hit. -/
def shortest (x : Binary64) : Nat × Int :=
  let magnitude : Int := (x.significand.log2 + x.exponent) * 30103 / 100000
  shortestFrom x.significand x.exponent 25 (magnitude + 2)

end Binary64

end Gatehouse
