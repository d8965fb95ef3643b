import Gatehouse.Text.Bytes

/-!
Universally unique identifiers, as thirty-two hexadecimal digits.

An identifier is written in lower case with hyphens after the digits 8, 12, 16
and 20. It is read in that spelling, in braces or behind `urn:uuid:`, and as
bare digits; letters may have either case.
-/

namespace Gatehouse

/-- An identifier of 128 bits. -/
structure Uuid where
  digits : Vector (Fin 16) 32
  deriving DecidableEq, Repr

namespace Uuid

/-- The identifier with all digits zero. -/
def nil : Uuid :=
  ⟨Vector.replicate 32 0⟩

def isNil (id : Uuid) : Bool :=
  id == nil

/-- A hexadecimal digit in lower case. -/
def symbol (d : Fin 16) : Char :=
  Bytes.hexLower (UInt8.ofNat d)

/-- The digit that a character of either case stands for. -/
def digit? (c : Char) : Option (Fin 16) :=
  if '0' ≤ c ∧ c ≤ '9' then some (Fin.ofNat 16 (c.toNat - '0'.toNat))
  else if 'a' ≤ c ∧ c ≤ 'f' then some (Fin.ofNat 16 (c.toNat - 'a'.toNat + 10))
  else if 'A' ≤ c ∧ c ≤ 'F' then some (Fin.ofNat 16 (c.toNat - 'A'.toNat + 10))
  else none

/-- The lengths of the groups between hyphens. -/
def groups : List Nat := [8, 4, 4, 4, 12]

/-- Put hyphens between groups of the given lengths. -/
def hyphenate : List Nat → List Char → List Char
  | [], cs => cs
  | [_], cs => cs
  | n :: ns, cs => cs.take n ++ '-' :: hyphenate ns (cs.drop n)

/-- Take the hyphens out from between groups of the given lengths. -/
def unhyphenate? : List Nat → List Char → Option (List Char)
  | [], cs => some cs
  | [_], cs => some cs
  | n :: ns, cs =>
      match cs.drop n with
      | '-' :: rest => (unhyphenate? ns rest).map (cs.take n ++ ·)
      | _ => none

def ofDigits? (cs : List Char) : Option Uuid := do
  let digits ← cs.mapM digit?
  if h : digits.toArray.size = 32 then some ⟨⟨digits.toArray, h⟩⟩ else none

def ofHyphenated? (cs : List Char) : Option Uuid :=
  (unhyphenate? groups cs).bind ofDigits?

/-- What stands before the digits of a uniform resource name. -/
def scheme : List Char := "urn:uuid:".toList

/-- Read an identifier in any of its four spellings, which differ in length. -/
def readChars? (cs : List Char) : Option Uuid :=
  if cs.length = 32 then ofDigits? cs
  else if cs.length = 36 then ofHyphenated? cs
  else if cs.length = 38 then
    if cs.head?.map Char.toNat = some 0x7B ∧ cs.getLast?.map Char.toNat = some 0x7D then
      ofHyphenated? (cs.drop 1).dropLast
    else none
  else if cs.length = 45 ∧ (cs.take 9).map Char.toLower = scheme then ofHyphenated? (cs.drop 9)
  else none

def read? (s : String) : Option Uuid :=
  readChars? s.toList

def chars (id : Uuid) : List Char :=
  hyphenate groups (id.digits.toList.map symbol)

def write (id : Uuid) : String :=
  String.ofList id.chars

/-- The digit at a place of a byte sequence, two digits to a byte. -/
def digitOf (bytes : Bytes) (i : Nat) : Fin 16 :=
  let b := (bytes.getD (i / 2) 0).toNat
  Fin.ofNat 16 (if i % 2 = 0 then b / 16 else b % 16)

/-- The identifier of the first sixteen bytes of a sequence. -/
def ofBytes (bytes : Bytes) : Uuid :=
  ⟨Vector.ofFn fun i => digitOf bytes i⟩

theorem length_chars (id : Uuid) : id.chars.length = 36 := by
  simp [chars, hyphenate, groups]

end Uuid

end Gatehouse
