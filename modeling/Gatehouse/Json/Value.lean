import Gatehouse.Json.Number

/-!
JSON values.

An object keeps its members as they were written, in order and with repeated
names; looking up a name finds the last member of it. `void` stands for a
well-formed text without a value: a string with half a surrogate pair, a number
past the range, a member name of that kind, or nesting beyond the limit. A value
that holds none is `whole`.
-/

namespace Gatehouse

/-- A JSON value. -/
inductive Json where
  | null
  | bool (value : Bool)
  | number (value : Json.Number)
  | text (value : String)
  | array (items : List Json)
  | object (members : List (String × Json))
  | void

namespace Json

def nat (n : Nat) : Json :=
  .number (.int n)

def int (i : Int) : Json :=
  .number (.int i)

def texts (xs : List String) : Json :=
  .array (xs.map .text)

def textOrNull : Option String → Json
  | some s => .text s
  | none => .null

/-- The last member of a name. -/
def last? (name : String) (members : List (String × Json)) : Option Json :=
  members.reverse.lookup name

def get? (name : String) : Json → Option Json
  | .object members => last? name members
  | _ => none

def text? : Json → Option String
  | .text s => some s
  | _ => none

def bool? : Json → Option Bool
  | .bool b => some b
  | _ => none

def int? : Json → Option Int
  | .number (.int i) => some i
  | _ => none

def items? : Json → Option (List Json)
  | .array items => some items
  | _ => none

def texts? (j : Json) : Option (List String) :=
  j.items?.bind fun items => items.mapM text?

mutual

/-- No part of the value is `void`. -/
def whole : Json → Bool
  | .void => false
  | .array items => wholeItems items
  | .object members => wholeMembers members
  | _ => true

def wholeItems : List Json → Bool
  | [] => true
  | j :: rest => whole j && wholeItems rest

def wholeMembers : List (String × Json) → Bool
  | [] => true
  | (_, j) :: rest => whole j && wholeMembers rest

end

/-- Drop every member that a later one of the same name hides. -/
def visible : List (String × Json) → List (String × Json)
  | [] => []
  | (name, j) :: rest =>
      if rest.any fun m => m.1 == name then visible rest else (name, j) :: visible rest

mutual

/-- The value with hidden members dropped everywhere. -/
def settled : Json → Json
  | .array items => .array (settledItems items)
  | .object members => .object (visible (settledMembers members))
  | j => j

/-- The items with hidden members dropped everywhere. -/
def settledItems : List Json → List Json
  | [] => []
  | j :: rest => settled j :: settledItems rest

/-- The members with hidden members dropped everywhere below. -/
def settledMembers : List (String × Json) → List (String × Json)
  | [] => []
  | (name, j) :: rest => (name, settled j) :: settledMembers rest

end

end Json

end Gatehouse
