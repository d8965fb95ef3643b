/-!
Bytes and text: UTF-8 both ways, and hexadecimal digits.

Reading is strict (`ofUtf8?`) or lenient (`lenient`). The lenient reader puts
one replacement character in the place of every longest run of bytes that
begins a character and cannot end one.
-/

namespace Gatehouse

/-- A sequence of bytes. -/
abbrev Bytes := List UInt8

namespace Bytes

/-- The bytes of a text in UTF-8. -/
def ofText (s : String) : Bytes :=
  s.toUTF8.data.toList

/-- The text that some bytes spell in UTF-8, if they spell one. -/
def text? (bytes : Bytes) : Option String :=
  String.fromUTF8? ⟨bytes.toArray⟩

/-- The value of a hexadecimal digit of either case. -/
def hexValue? (b : UInt8) : Option UInt8 :=
  if '0'.toUInt8 ≤ b ∧ b ≤ '9'.toUInt8 then some (b - '0'.toUInt8)
  else if 'a'.toUInt8 ≤ b ∧ b ≤ 'f'.toUInt8 then some (b - 'a'.toUInt8 + 10)
  else if 'A'.toUInt8 ≤ b ∧ b ≤ 'F'.toUInt8 then some (b - 'A'.toUInt8 + 10)
  else none

/-- The hexadecimal digit of a value below sixteen, in lower case. -/
def hexLower (n : UInt8) : Char :=
  if n < 10 then Char.ofUInt8 ('0'.toUInt8 + n) else Char.ofUInt8 ('a'.toUInt8 + (n - 10))

/-- The hexadecimal digit of a value below sixteen, in upper case. -/
def hexUpper (n : UInt8) : Char :=
  if n < 10 then Char.ofUInt8 ('0'.toUInt8 + n) else Char.ofUInt8 ('A'.toUInt8 + (n - 10))

/-- What is left of a character after its first bytes: how many bytes are
owed, the range of the next one, and the value so far. -/
structure Partial where
  owed : Nat
  low : UInt8
  high : UInt8
  value : Nat
  deriving DecidableEq, Repr

/-- What the first byte of a character leaves: nothing after an ASCII byte,
whose character is given, and `none` after a byte that begins none. -/
def Partial.ofFirst (b : UInt8) : Option (Char ⊕ Partial) :=
  if b < 0x80 then some (.inl (Char.ofUInt8 b))
  else if b < 0xC2 then none
  else if b < 0xE0 then some (.inr ⟨1, 0x80, 0xBF, b.toNat - 0xC0⟩)
  else if b < 0xF0 then
    some (.inr ⟨2, if b = 0xE0 then 0xA0 else 0x80, if b = 0xED then 0x9F else 0xBF,
      b.toNat - 0xE0⟩)
  else if b < 0xF5 then
    some (.inr ⟨3, if b = 0xF0 then 0x90 else 0x80, if b = 0xF4 then 0x8F else 0xBF,
      b.toNat - 0xF0⟩)
  else none

/-- The character that stands for bytes that spell none. -/
def replacement : Char := '\uFFFD'

/-- Read bytes after the part `held` of a character, one replacement character
for each run that spells none. -/
def lenientChars : Option Partial → Bytes → List Char
  | none, [] => []
  | some _, [] => [replacement]
  | none, b :: rest =>
      match Partial.ofFirst b with
      | none => replacement :: lenientChars none rest
      | some (.inl c) => c :: lenientChars none rest
      | some (.inr held) => lenientChars (some held) rest
  | some held, b :: rest =>
      if held.low ≤ b ∧ b ≤ held.high then
        let value := held.value * 64 + (b.toNat - 0x80)
        if held.owed ≤ 1 then Char.ofNat value :: lenientChars none rest
        else lenientChars (some ⟨held.owed - 1, 0x80, 0xBF, value⟩) rest
      else
        match Partial.ofFirst b with
        | none => replacement :: replacement :: lenientChars none rest
        | some (.inl c) => replacement :: c :: lenientChars none rest
        | some (.inr next) => replacement :: lenientChars (some next) rest

/-- The text that some bytes spell, with a replacement character for each run
of bytes that spells none. -/
def lenient (bytes : Bytes) : String :=
  String.ofList (lenientChars none bytes)

theorem text?_ofText (s : String) : text? (ofText s) = some s := by
  have whole : (⟨(ofText s).toArray⟩ : ByteArray) = s.toUTF8 := by simp [ofText]
  rw [text?, whole, String.fromUTF8?]
  simp [String.fromUTF8, s.isValidUTF8]

end Bytes

end Gatehouse
