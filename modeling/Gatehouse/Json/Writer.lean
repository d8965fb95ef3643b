import Gatehouse.Json.Value
import Gatehouse.Text.Bytes

/-!
Writing JSON values without blanks.

A string keeps every character that the format lets stand, except the three
that end a line beyond ASCII; a written value is therefore a single line.
-/

namespace Gatehouse.Json

/-- A character by its code in four hexadecimal digits. -/
def escapeCode (n : Nat) : List Char :=
  let digit (shift : Nat) : Char := Bytes.hexLower (UInt8.ofNat (n >>> shift % 16))
  ['\\', 'u', digit 12, digit 8, digit 4, digit 0]

/-- A character inside a string. -/
def writeChar (c : Char) : List Char :=
  let n := c.toNat
  if c = '"' then ['\\', '"']
  else if c = '\\' then ['\\', '\\']
  else if c = '\n' then ['\\', 'n']
  else if c = '\r' then ['\\', 'r']
  else if c = '\t' then ['\\', 't']
  else if n = 0x08 then ['\\', 'b']
  else if n = 0x0C then ['\\', 'f']
  else if n < 0x20 ∨ n = 0x85 ∨ n = 0x2028 ∨ n = 0x2029 then escapeCode n
  else [c]

def writeText (s : String) : String :=
  String.ofList ('"' :: s.toList.flatMap writeChar ++ ['"'])

mutual

def write : Json → String
  | .null | .void => "null"
  | .bool true => "true"
  | .bool false => "false"
  | .number n => n.write
  | .text s => writeText s
  | .array items => "[" ++ ",".intercalate (writeItems items) ++ "]"
  | .object members => "\x7b" ++ ",".intercalate (writeMembers members) ++ "\x7d"

def writeItems : List Json → List String
  | [] => []
  | j :: rest => write j :: writeItems rest

def writeMembers : List (String × Json) → List String
  | [] => []
  | (name, j) :: rest => (writeText name ++ ":" ++ write j) :: writeMembers rest

end

end Gatehouse.Json
