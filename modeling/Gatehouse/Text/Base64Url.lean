import Gatehouse.Text.Bytes

/-!
Base 64 with the URL-safe alphabet and without padding.

Three bytes become four characters; one or two bytes at the end become two or
three. A text is read back only if it is exactly what writing produces: no
padding, no other character, no lone last character, no bits left over.
-/

namespace Gatehouse.Text.Base64Url

/-- The character of a value below sixty-four. -/
def symbol (n : Nat) : Char :=
  if n < 26 then Char.ofNat ('A'.toNat + n)
  else if n < 52 then Char.ofNat ('a'.toNat + (n - 26))
  else if n < 62 then Char.ofNat ('0'.toNat + (n - 52))
  else if n = 62 then '-'
  else '_'

/-- The value of a character of the alphabet. -/
def value? (c : Char) : Option Nat :=
  if c.isUpper then some (c.toNat - 'A'.toNat)
  else if c.isLower then some (c.toNat - 'a'.toNat + 26)
  else if c.isDigit then some (c.toNat - '0'.toNat + 52)
  else if c = '-' then some 62
  else if c = '_' then some 63
  else none

def encodeChars : Bytes → List Char
  | [] => []
  | [a] => [symbol (a.toNat / 4), symbol (a.toNat % 4 * 16)]
  | [a, b] =>
      [symbol (a.toNat / 4), symbol (a.toNat % 4 * 16 + b.toNat / 16), symbol (b.toNat % 16 * 4)]
  | a :: b :: c :: rest =>
      symbol (a.toNat / 4) :: symbol (a.toNat % 4 * 16 + b.toNat / 16) ::
        symbol (b.toNat % 16 * 4 + c.toNat / 64) :: symbol (c.toNat % 64) :: encodeChars rest

def encode (bytes : Bytes) : String :=
  String.ofList (encodeChars bytes)

def decodeChars? : List Char → Option Bytes
  | [] => some []
  | [_] => none
  | [w, x] => do
      let a ← value? w
      let b ← value? x
      if b % 16 = 0 then some [UInt8.ofNat (a * 4 + b / 16)] else none
  | [w, x, y] => do
      let a ← value? w
      let b ← value? x
      let c ← value? y
      if c % 4 = 0 then
        some [UInt8.ofNat (a * 4 + b / 16), UInt8.ofNat (b % 16 * 16 + c / 4)]
      else none
  | w :: x :: y :: z :: rest => do
      let a ← value? w
      let b ← value? x
      let c ← value? y
      let d ← value? z
      let bytes ← decodeChars? rest
      some (UInt8.ofNat (a * 4 + b / 16) :: UInt8.ofNat (b % 16 * 16 + c / 4) ::
        UInt8.ofNat (c % 4 * 64 + d) :: bytes)

def decode? (s : String) : Option Bytes :=
  decodeChars? s.toList

end Gatehouse.Text.Base64Url
