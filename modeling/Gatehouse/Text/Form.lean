import Gatehouse.Text.Blank
import Gatehouse.Text.Percent

/-!
Name and value pairs in the form encoding of web queries.

A pair is written `name=value` and pairs are joined by `&`. Within a name or a
value, letters, digits and `*`, `-`, `.`, `_` stand for themselves, `+` for a
space, and every other byte is percent-encoded. Reading is lenient: a piece
without `=` is a name with an empty value, an empty piece is no pair, and bytes
that spell no text become replacement characters.
-/

namespace Gatehouse.Text.Form

/-- A name and its value. -/
abbrev Pair := String × String

/-- The bytes that stand for themselves. -/
def isPlain (b : UInt8) : Bool :=
  Percent.isAlphanumeric b || b == 0x2A || b == 0x2D || b == 0x2E || b == 0x5F

def encodeByte (b : UInt8) : List Char :=
  if b == 0x20 then ['+'] else Percent.encodeByte isPlain b

def encodeText (s : String) : String :=
  String.ofList ((Bytes.ofText s).flatMap encodeByte)

def encodePair (pair : Pair) : String :=
  encodeText pair.1 ++ "=" ++ encodeText pair.2

/-- The pairs in order. -/
def encode (pairs : List Pair) : String :=
  "&".intercalate (pairs.map encodePair)

def decodeText (s : String) : String :=
  Bytes.lenient (Percent.decode ((Bytes.ofText s).map fun b => if b == 0x2B then 0x20 else b))

/-- Read one piece between two `&`. -/
def decodePair (piece : String) : Pair :=
  match cut '=' piece with
  | some (name, value) => (decodeText name, decodeText value)
  | none => (decodeText piece, "")

/-- The pairs of a query in order. -/
def decode (query : String) : List Pair :=
  ((split '&' query).filter fun piece => !piece.isEmpty).map decodePair

end Gatehouse.Text.Form
