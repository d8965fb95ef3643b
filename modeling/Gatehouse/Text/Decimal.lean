/-!
Whole numbers in decimal text.

A number is read digit by digit against a bound, so of two faults the one that
stands first in the text is reported: a character that is no digit, or the
digit that takes the value past the bound. One leading `+` is allowed, and one
leading `-` where the target has negative values.
-/

namespace Gatehouse.Text.Decimal

/-- Why a text is no number of the target range. -/
inductive Fault where
  | empty
  | invalidDigit
  | tooLarge
  | tooSmall
  deriving DecidableEq, Repr

def Fault.message : Fault → String
  | .empty => "cannot parse integer from empty string"
  | .invalidDigit => "invalid digit found in string"
  | .tooLarge => "number too large to fit in target type"
  | .tooSmall => "number too small to fit in target type"

/-- The largest value of 16, 63 and 64 bits. -/
def max16 : Nat := UInt16.size - 1

@[inherit_doc max16]
def max63 : Nat := UInt64.size / 2 - 1

@[inherit_doc max16]
def max64 : Nat := UInt64.size - 1

def digit? (c : Char) : Option Nat :=
  if c.isDigit then some (c.toNat - '0'.toNat) else none

/-- Read digits onto `value`, which may not pass `bound`; `past` is the fault
for a value that does. -/
def readDigits (bound : Nat) (past : Fault) (value : Nat) : List Char → Except Fault Nat
  | [] => .ok value
  | c :: rest =>
      match digit? c with
      | none => .error .invalidDigit
      | some d =>
          if 10 * value + d ≤ bound then readDigits bound past (10 * value + d) rest
          else .error past

/-- Read a number between zero and `bound`. -/
def readNat (bound : Nat) (s : String) : Except Fault Nat :=
  match s.toList with
  | [] => .error .empty
  | ['+'] => .error .invalidDigit
  | '+' :: rest => readDigits bound .tooLarge 0 rest
  | cs => readDigits bound .tooLarge 0 cs

/-- Read a number between `-2 ^ 63` and `2 ^ 63 - 1`. -/
def readInt (s : String) : Except Fault Int :=
  match s.toList with
  | [] => .error .empty
  | ['+'] | ['-'] => .error .invalidDigit
  | '+' :: rest => (readDigits max63 .tooLarge 0 rest).map Int.ofNat
  | '-' :: rest => (readDigits (max63 + 1) .tooSmall 0 rest).map fun n => -Int.ofNat n
  | cs => (readDigits max63 .tooLarge 0 cs).map Int.ofNat

/-- The decimal digits of a number, without leading zeros. -/
def ofNat (n : Nat) : String :=
  String.ofList (Nat.toDigits 10 n)

/-- The decimal digits of a number behind its sign. -/
def ofInt (i : Int) : String :=
  if i < 0 then "-" ++ ofNat i.natAbs else ofNat i.natAbs

/-- A value that is read is within the bound. -/
theorem readDigits_le {bound value n : Nat} {past : Fault} {cs : List Char} (h : value ≤ bound)
    (read : readDigits bound past value cs = .ok n) : n ≤ bound := by
  induction cs generalizing value with
  | nil => simp only [readDigits, Except.ok.injEq] at read; omega
  | cons c rest ih =>
      simp only [readDigits] at read
      split at read
      · exact absurd read (by simp)
      · split at read
        · exact ih (by assumption) read
        · exact absurd read (by simp)

end Gatehouse.Text.Decimal
