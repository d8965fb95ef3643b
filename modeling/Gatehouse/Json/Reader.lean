import Gatehouse.Json.Value
import Gatehouse.Text.Bytes

/-!
Reading JSON texts, in two passes.

The first cuts the text into tokens and looks at each character once. The
second builds the value token by token and keeps the arrays and objects that
are still open on a stack. Both are folds, so reading ends on every text.
-/

namespace Gatehouse.Json

/-! ### Tokens -/

/-- A token. A string or a number may have no value. -/
inductive Token where
  | openArray
  | closeArray
  | openObject
  | closeObject
  | comma
  | colon
  | text (value : Option String)
  | number (value : Option Number)
  | bool (value : Bool)
  | null
  deriving Repr

/-- One character of a string as it is written: a character, or a code unit
that an escape gives. -/
abbrev Glyph := Char ⊕ Nat

/-- The characters that glyphs spell: a high surrogate must stand before a low
one, and neither may stand alone. -/
def spell? : List Glyph → Option (List Char)
  | [] => some []
  | .inl c :: rest => (spell? rest).map (c :: ·)
  | .inr u :: rest =>
      if u < 0xD800 ∨ 0xDFFF < u then (spell? rest).map (Char.ofNat u :: ·)
      else if u < 0xDC00 then
        match rest with
        | .inr v :: rest =>
            if 0xDC00 ≤ v ∧ v ≤ 0xDFFF then
              (spell? rest).map (Char.ofNat (0x10000 + (u - 0xD800) * 0x400 + (v - 0xDC00)) :: ·)
            else none
        | _ => none
      else none

/-- Where a text is being cut: between tokens, in a word or a number, in a
string, after a backslash, or in the digits of an escape. What was gathered is
kept in reverse. -/
inductive Cut where
  | between
  | word (letters : List Char)
  | number (signs : List Char)
  | string (glyphs : List Glyph)
  | escape (glyphs : List Glyph)
  | code (glyphs : List Glyph) (owed value : Nat)
  | broken

def wordToken? (letters : List Char) : Option Token :=
  if letters = "true".toList then some (.bool true)
  else if letters = "false".toList then some (.bool false)
  else if letters = "null".toList then some .null
  else none

def numberToken? (signs : List Char) : Option Token :=
  (Number.parts? signs).map fun p => .number (Number.ofParts? p)

/-- The characters that a number may hold. -/
def isNumberSign (c : Char) : Bool :=
  c.isDigit || c = '+' || c = '-' || c = '.' || c = 'e' || c = 'E'

/-- The character that a short escape stands for. -/
def shortEscape? : Char → Option Char
  | '"' => some '"'
  | '\\' => some '\\'
  | '/' => some '/'
  | 'b' => some '\x08'
  | 'f' => some '\x0C'
  | 'n' => some '\n'
  | 'r' => some '\r'
  | 't' => some '\t'
  | _ => none

/-- The tokens so far, the latest first, and where the text is being cut. -/
abbrev Cutting := List Token × Cut

/-- One character between tokens. -/
def cutBetween (done : List Token) (c : Char) : Cutting :=
  if c = ' ' ∨ c = '\n' ∨ c = '\t' ∨ c = '\r' then (done, .between)
  else if c = '[' then (.openArray :: done, .between)
  else if c = ']' then (.closeArray :: done, .between)
  else if c.toNat = 0x7B then (.openObject :: done, .between)
  else if c.toNat = 0x7D then (.closeObject :: done, .between)
  else if c = ',' then (.comma :: done, .between)
  else if c = ':' then (.colon :: done, .between)
  else if c = '"' then (done, .string [])
  else if c = '-' ∨ c.isDigit then (done, .number [c])
  else if c.isLower then (done, .word [c])
  else (done, .broken)

/-- Put the token that just ended, if it is one, before what follows. -/
def cutAfter (done : List Token) (ended : Option Token) (c : Char) : Cutting :=
  match ended with
  | some token => cutBetween (token :: done) c
  | none => (done, .broken)

/-- One character of the text. -/
def cutChar : Cutting → Char → Cutting
  | (done, .between), c => cutBetween done c
  | (done, .word letters), c =>
      if c.isLower then (done, .word (c :: letters))
      else cutAfter done (wordToken? letters.reverse) c
  | (done, .number signs), c =>
      if isNumberSign c then (done, .number (c :: signs))
      else cutAfter done (numberToken? signs.reverse) c
  | (done, .string glyphs), c =>
      if c = '"' then (.text ((spell? glyphs.reverse).map String.ofList) :: done, .between)
      else if c = '\\' then (done, .escape glyphs)
      else if c.toNat < 0x20 then (done, .broken)
      else (done, .string (.inl c :: glyphs))
  | (done, .escape glyphs), c =>
      if c = 'u' then (done, .code glyphs 4 0)
      else
        match shortEscape? c with
        | some e => (done, .string (.inl e :: glyphs))
        | none => (done, .broken)
  | (done, .code glyphs owed value), c =>
      match if c.toNat < 0x80 then Bytes.hexValue? c.toUInt8 else none with
      | none => (done, .broken)
      | some digit =>
          let value := value * 16 + digit.toNat
          if owed ≤ 1 then (done, .string (.inr value :: glyphs))
          else (done, .code glyphs (owed - 1) value)
  | (done, .broken), _ => (done, .broken)

/-- The tokens once the text has ended. -/
def cutEnd? : Cutting → Option (List Token)
  | (done, .between) => some done.reverse
  | (done, .word letters) => (wordToken? letters.reverse).map fun t => (t :: done).reverse
  | (done, .number signs) => (numberToken? signs.reverse).map fun t => (t :: done).reverse
  | _ => none

/-- The tokens of a text, if it can be cut into tokens. -/
def tokens? (cs : List Char) : Option (List Token) :=
  cutEnd? (cs.foldl cutChar ([], .between))

/-! ### Values -/

/-- Arrays and objects may be nested this deep. -/
def depthLimit : Nat := 127

/-- An array or object that is still open, its parts in reverse. An object also
has the name of the member being read and whether every name had a text. -/
inductive Frame where
  | array (items : List Json)
  | object (members : List (String × Json)) (name : String) (named : Bool)

/-- What may come next. -/
inductive Want where
  | value
  | valueOrClose
  | name
  | nameOrClose
  | colon
  | commaOrClose
  | nothing (value : Json)
  | fault

/-- The open arrays and objects, the innermost first, and what may come next. -/
structure Building where
  frames : List Frame
  want : Want

/-- Hand a finished value to the innermost open array or object. -/
def Building.deliver (frames : List Frame) (j : Json) : Building :=
  match frames with
  | [] => ⟨[], .nothing j⟩
  | .array items :: rest => ⟨.array (j :: items) :: rest, .commaOrClose⟩
  | .object members name named :: rest =>
      ⟨.object ((name, j) :: members) name named :: rest, .commaOrClose⟩

def Building.close (array : Bool) : List Frame → Building
  | .array items :: rest =>
      if array then
        .deliver rest (if rest.length < depthLimit then .array items.reverse else .void)
      else ⟨[], .fault⟩
  | .object members _ named :: rest =>
      if array then ⟨[], .fault⟩
      else
        .deliver rest
          (if rest.length < depthLimit ∧ named then .object members.reverse else .void)
  | [] => ⟨[], .fault⟩

/-- A value begins. -/
def Building.begin (frames : List Frame) : Token → Building
  | .openArray => ⟨.array [] :: frames, .valueOrClose⟩
  | .openObject => ⟨.object [] "" true :: frames, .nameOrClose⟩
  | .text (some s) => .deliver frames (.text s)
  | .number (some n) => .deliver frames (.number n)
  | .text none | .number none => .deliver frames .void
  | .bool b => .deliver frames (.bool b)
  | .null => .deliver frames .null
  | _ => ⟨[], .fault⟩

/-- A member begins. -/
def Building.name : List Frame → Token → Building
  | .object members _ named :: rest, .text (some s) => ⟨.object members s named :: rest, .colon⟩
  | .object members _ _ :: rest, .text none => ⟨.object members "" false :: rest, .colon⟩
  | _, _ => ⟨[], .fault⟩

/-- One token of the text. -/
def Building.step (b : Building) (t : Token) : Building :=
  match b.want, t with
  | .value, t => .begin b.frames t
  | .valueOrClose, .closeArray => .close true b.frames
  | .valueOrClose, t => .begin b.frames t
  | .name, t => .name b.frames t
  | .nameOrClose, .closeObject => .close false b.frames
  | .nameOrClose, t => .name b.frames t
  | .colon, .colon => ⟨b.frames, .value⟩
  | .commaOrClose, .comma =>
      match b.frames with
      | .array _ :: _ => ⟨b.frames, .value⟩
      | _ => ⟨b.frames, .name⟩
  | .commaOrClose, .closeArray => .close true b.frames
  | .commaOrClose, .closeObject => .close false b.frames
  | _, _ => ⟨[], .fault⟩

def Building.value? (b : Building) : Option Json :=
  match b.want with
  | .nothing j => some j
  | _ => none

/-- The value of a text that is JSON. -/
def read? (s : String) : Option Json := do
  let tokens ← tokens? s.toList
  (tokens.foldl Building.step ⟨[], .value⟩).value?

/-- The value of a text that is JSON without void parts. -/
def readWhole? (s : String) : Option Json :=
  (read? s).filter whole

end Gatehouse.Json
