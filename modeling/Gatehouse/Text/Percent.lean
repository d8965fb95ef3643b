import Gatehouse.Text.Bytes

/-!
Percent coding of bytes.

`encode` keeps the bytes of a class and writes each other byte as `%` and two
upper-case hexadecimal digits. `decode` reads a `%` with two hexadecimal digits
of either case as one byte and keeps every other byte, a `%` without them
included.
-/

namespace Gatehouse.Text.Percent

/-- The byte of `%`. -/
def sign : UInt8 := 0x25

def isAlphanumeric (b : UInt8) : Bool :=
  (Char.ofUInt8 b).isAlphanum && b < 0x80

/-- The bytes that never need an escape: letters, digits, `-`, `.`, `_`, `~`. -/
def isUnreserved (b : UInt8) : Bool :=
  isAlphanumeric b || b == 0x2D || b == 0x2E || b == 0x5F || b == 0x7E

/-- One byte as `%` and its two digits. -/
def escape (b : UInt8) : List Char :=
  ['%', Bytes.hexUpper (b >>> 4), Bytes.hexUpper (b &&& 0x0F)]

/-- One byte as itself when it is `plain`, else escaped. -/
def encodeByte (plain : UInt8 → Bool) (b : UInt8) : List Char :=
  if plain b then [Char.ofUInt8 b] else escape b

/-- Bytes with every byte that is not `plain` escaped. -/
def encodeBytes (plain : UInt8 → Bool) (bytes : Bytes) : List Char :=
  bytes.flatMap (encodeByte plain)

/-- The bytes of a text, with every byte that is not `plain` escaped. -/
def encode (plain : UInt8 → Bool) (s : String) : String :=
  String.ofList (encodeBytes plain (Bytes.ofText s))

/-- Bytes with their escapes read. -/
def decode : Bytes → Bytes
  | a :: h :: l :: rest =>
      match a == sign, Bytes.hexValue? h, Bytes.hexValue? l with
      | true, some high, some low => (high * 16 + low) :: decode rest
      | _, _, _ => a :: decode (h :: l :: rest)
  | short => short

/-- The text that the bytes of a text spell once its escapes are read, if they
spell one. -/
def decodeText? (s : String) : Option String :=
  Bytes.text? (decode (Bytes.ofText s))

end Gatehouse.Text.Percent
