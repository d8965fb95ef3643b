import Gatehouse.Json.Binary64
import Gatehouse.Text.Decimal

/-!
The numbers of JSON texts.

A number without fraction and exponent that fits 64 bits, signed or unsigned,
is a whole number; every other one is the binary number that its digits give.
Digits are gathered in a 64-bit significand, later ones are dropped, and the
significand is then scaled by a power of ten.
-/

namespace Gatehouse.Json

open Text

/-- A number. -/
inductive Number where
  | int (value : Int)
  | real (value : Binary64)
  deriving DecidableEq, Repr

namespace Number

/-- The parts of a written number. -/
structure Parts where
  negative : Bool
  whole : List Char
  fraction : Option (List Char)
  exponent : Option (Bool × List Char)
  deriving DecidableEq, Repr

/-- Split off the digits at the front. -/
def digitsOf (cs : List Char) : List Char × List Char :=
  (cs.takeWhile Char.isDigit, cs.dropWhile Char.isDigit)

/-- The whole part: one zero, or digits that begin with another one. -/
def wholePart? (cs : List Char) : Option (List Char × List Char) :=
  match digitsOf cs with
  | ([], _) => none
  | ('0' :: _ :: _, _) => none
  | parts => some parts

/-- The fraction, if a point follows: at least one digit. -/
def fractionPart? : List Char → Option (Option (List Char) × List Char)
  | '.' :: cs =>
      match digitsOf cs with
      | ([], _) => none
      | (ds, rest) => some (some ds, rest)
  | cs => some (none, cs)

/-- The digits of an exponent up to the end of the number: at least one. -/
def exponentDigits? (negative : Bool) (cs : List Char) : Option (Option (Bool × List Char)) :=
  match digitsOf cs with
  | ([], _) => none
  | (ds, []) => some (some (negative, ds))
  | _ => none

def exponentPart? : List Char → Option (Option (Bool × List Char))
  | [] => some none
  | c :: cs =>
      if c = 'e' ∨ c = 'E' then
        match cs with
        | '+' :: ds => exponentDigits? false ds
        | '-' :: ds => exponentDigits? true ds
        | ds => exponentDigits? false ds
      else none

/-- The parts of a text that is a number by the grammar of JSON. -/
def parts? (cs : List Char) : Option Parts := do
  let (negative, cs) := match cs with
    | '-' :: rest => (true, rest)
    | rest => (false, rest)
  let (whole, cs) ← wholePart? cs
  let (fraction, cs) ← fractionPart? cs
  let exponent ← exponentPart? cs
  some ⟨negative, whole, fraction, exponent⟩

def digit (c : Char) : Nat :=
  c.toNat - '0'.toNat

/-- Gather digits onto a significand until one no longer fits 64 bits; the
number of gathered digits is counted. -/
def gather (significand count : Nat) : List Char → Nat × Nat
  | [] => (significand, count)
  | c :: rest =>
      if 10 * significand + digit c ≤ Decimal.max64 then
        gather (10 * significand + digit c) (count + 1) rest
      else (significand, count)

/-- Divide by `10 ^ 308` until at most `10 ^ 308` is left to divide by. -/
def divideByTens : Nat → Binary64 → Nat → Option Binary64
  | 0, x, _ => some (Binary64.zero x.negative)
  | fuel + 1, x, n =>
      if n ≤ 308 then (Binary64.powerOfTen? n).bind x.div?
      else if x.significand = 0 then some x
      else do
        let ten ← Binary64.powerOfTen? 308
        let y ← x.div? ten
        divideByTens fuel y (n - 308)

/-- The binary number for a significand and a power of ten; `none` past the
range. A significand of 64 bits is zero after three divisions by `10 ^ 308`. -/
def scaled? (negative : Bool) (significand : Nat) (power : Int) : Option Binary64 := do
  let x ← Binary64.nearest? negative significand 1
  if power < 0 then divideByTens 5 x power.natAbs
  else if power ≤ 308 then (Binary64.powerOfTen? power.toNat).bind x.mul?
  else if x.significand = 0 then some x
  else none

/-- The exponent of a number in digits; `none` past 31 bits. -/
def exponentValue? (digits : List Char) : Option Nat :=
  (Decimal.readDigits (UInt32.size / 2 - 1) .tooLarge 0 digits).toOption

/-- The binary number that the parts of a number give. -/
def realValue? (p : Parts) : Option Binary64 :=
  let (significand, used) := gather 0 0 p.whole
  let dropped : Int := (p.whole.length - used : Nat)
  let (significand, places) := gather significand 0 (p.fraction.getD [])
  let power := dropped - (places : Int)
  match p.exponent with
  | none => scaled? p.negative significand power
  | some (down, digits) =>
      match exponentValue? digits with
      | some n => scaled? p.negative significand (if down then power - (n : Int) else power + n)
      | none => if down ∨ significand = 0 then some (Binary64.zero p.negative) else none

/-- The whole number that digits without fraction and exponent give, if it fits
64 bits. Minus zero is no whole number. -/
def wholeValue? (p : Parts) : Option Int :=
  if p.fraction.isSome ∨ p.exponent.isSome then none
  else
    match Decimal.readDigits Decimal.max64 .tooLarge 0 p.whole with
    | .error _ => none
    | .ok n =>
        if !p.negative then some n
        else if n ≠ 0 ∧ n ≤ Decimal.max63 + 1 then some (-(n : Int))
        else none

/-- The value of a number in parts; `none` past the range. -/
def ofParts? (p : Parts) : Option Number :=
  match wholeValue? p with
  | some i => some (.int i)
  | none => (realValue? p).map .real

/-- A power of ten as it is written: digits, with a point after the first. -/
def scientific (digits : List Char) (power : Int) : List Char :=
  match digits with
  | [] => []
  | [d] => d :: 'e' :: (Decimal.ofInt power).toList
  | d :: rest => d :: '.' :: rest ++ 'e' :: (Decimal.ofInt power).toList

/-- Digits times a power of ten in positional notation where that is short:
between `10 ^ -5` and `10 ^ 16`, always with a point. -/
def positional (digits : List Char) (power : Int) : List Char :=
  let point : Int := digits.length + power
  if 0 ≤ power ∧ point ≤ 16 then digits ++ List.replicate power.toNat '0' ++ ['.', '0']
  else if 0 < point ∧ point ≤ 16 then
    digits.take point.toNat ++ '.' :: digits.drop point.toNat
  else if -5 < point ∧ point ≤ 0 then
    '0' :: '.' :: List.replicate (-point).toNat '0' ++ digits
  else scientific digits (point - 1)

def write : Number → String
  | .int i => Decimal.ofInt i
  | .real x =>
      let magnitude :=
        if x.significand = 0 then ['0', '.', '0']
        else
          let (q, p) := x.shortest
          positional (Decimal.ofNat q).toList p
      String.ofList (if x.negative then '-' :: magnitude else magnitude)

end Number

end Gatehouse.Json
