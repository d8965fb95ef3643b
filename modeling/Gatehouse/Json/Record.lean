import Gatehouse.Json.Value

/-!
Records in JSON: values with a fixed list of fields.

A record is written as an object, where unknown members are ignored and a field
may be left out, or as an array of its fields in order, where only the last ones
may be left out. A field given twice makes the object no record.
-/

namespace Gatehouse.Json

/-- The fields of a record, each with its value if it is given. -/
abbrev Fields := List (Option Json)

/-- The member of a name, if there is at most one: `none` for two. -/
def single? (name : String) (members : List (String × Json)) : Option (Option Json) :=
  match members.filter fun m => m.1 == name with
  | [] => some none
  | [m] => some (some m.2)
  | _ => none

/-- The fields `names` of a record. As an array it gives at least the first
`needed` of them and no others. -/
def record? (names : List String) (needed : Nat) : Json → Option Fields
  | .object members => names.mapM fun name => single? name members
  | .array items =>
      if needed ≤ items.length ∧ items.length ≤ names.length then
        some (items.map some ++ List.replicate (names.length - items.length) none)
      else none
  | _ => none

/-- A field that has to be given. -/
def required (read : Json → Option α) : Option Json → Option α
  | some j => read j
  | none => none

/-- A field with a value of its own when it is not given. -/
def orElse (value : α) (read : Json → Option α) : Option Json → Option α
  | some j => read j
  | none => some value

/-- A field that may be missing or null. -/
def nullable (read : Json → Option α) : Option Json → Option (Option α)
  | none | some .null => some none
  | some j => (read j).map some

end Gatehouse.Json
