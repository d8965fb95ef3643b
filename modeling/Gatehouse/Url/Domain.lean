import Gatehouse.Text.Blank
import Gatehouse.Text.Punycode

/-!
Domain names in ASCII.

A name is first folded: capitals become small, wide forms narrow, every kind of
full stop a dot, and invisible characters vanish. Each label between dots is
then written in ASCII. A name with a character that no address may hold, or with
a label that only looks encoded, has no such form.
-/

namespace Gatehouse.Domain

/-- A character in a range, moved by an offset. -/
def moved (n low high offset : Nat) : Option (List Char) :=
  if low ≤ n ∧ n ≤ high then some [Char.ofNat (n + offset)] else none

/-- The capital at the even or odd code points of a range; its small letter
comes next. -/
def paired (n low high parity : Nat) : Option (List Char) :=
  if low ≤ n ∧ n ≤ high ∧ n % 2 = parity then some [Char.ofNat (n + 1)] else none

/-- The characters that are not seen. -/
def isInvisible (n : Nat) : Bool :=
  n == 0xAD || n == 0x200B || n == 0x2060 || n == 0xFEFF

/-- The full stops of other scripts. -/
def isFullStop (n : Nat) : Bool :=
  n == 0x3002 || n == 0xFF0E || n == 0xFF61

/-- A capital beyond ASCII of the Latin, Greek or Cyrillic script, as a small
letter. -/
def foldCapital (n : Nat) : Option (List Char) :=
  if n = 0xD7 ∨ n = 0x3A2 then none
  else
    moved n 0xC0 0xDE 0x20 <|> paired n 0x100 0x12F 0 <|> paired n 0x132 0x137 0 <|>
      paired n 0x139 0x148 1 <|> paired n 0x14A 0x177 0 <|> paired n 0x179 0x17E 1 <|>
      moved n 0x386 0x386 0x26 <|> moved n 0x388 0x38A 0x25 <|> moved n 0x38C 0x38C 0x40 <|>
      moved n 0x38E 0x38F 0x3F <|> moved n 0x391 0x3AB 0x20 <|> moved n 0x400 0x40F 0x50 <|>
      moved n 0x410 0x42F 0x20

/-- What a character becomes. -/
def fold (c : Char) : List Char :=
  let n := c.toNat
  if n < 0x80 then [c.toLower]
  else if isInvisible n then []
  else if isFullStop n then ['.']
  else if 0xFF01 ≤ n ∧ n ≤ 0xFF5E then [(Char.ofNat (n - 0xFEE0)).toLower]
  else (foldCapital n).getD [c]

/-- The ASCII characters that no domain name may hold. -/
def isForbidden (c : Char) : Bool :=
  c.toNat ≤ 0x20 || c.toNat == 0x7F || "%#/:<>?@[\\]^|".toList.contains c

/-- What stands before an encoded label. -/
def marker : List Char := "xn--".toList

def isAscii (label : List Char) : Bool :=
  label.all fun c => c.toNat < 0x80

/-- Whether a label that bears the marker stands for a label that needs it. -/
def isEncoded (label : List Char) : Bool :=
  match Text.Punycode.decode? (label.drop marker.length) with
  | some inner => !isAscii inner && inner.flatMap fold == inner
  | none => false

/-- A folded label in ASCII. -/
def labelToAscii? (label : List Char) : Option (List Char) :=
  if isAscii label then
    if marker.isPrefixOf label ∧ ¬ isEncoded label then none else some label
  else some (marker ++ Text.Punycode.encode label)

/-- A domain name in ASCII, if it has that form. -/
def toAscii? (name : List Char) : Option (List Char) :=
  let folded := name.flatMap fold
  if folded.any isForbidden then none
  else (Text.pieces '.' folded).mapM labelToAscii? |>.map (['.'].intercalate ·)

end Gatehouse.Domain
