import Gatehouse.Text.Blank
import Gatehouse.Text.Bytes

/-!
Header fields of a message.

Names are lower case and may repeat; the values of a name keep their order.
Values are bytes. A value is readable as text only if it is visible ASCII with
blanks, and text can become a value only if it has no control character.
-/

namespace Gatehouse.Http

/-- The bytes of a header value. -/
abbrev Value := Bytes

namespace Value

/-- A byte of readable text: visible ASCII, a space or a tab. -/
def isReadable (b : UInt8) : Bool :=
  (0x20 ≤ b && b < 0x7F) || b == 0x09

/-- The text of a value whose bytes are all readable. -/
def text? (v : Value) : Option String :=
  if v.all isReadable then some (String.ofList (v.map Char.ofUInt8)) else none

/-- A byte that a value may hold: no control character but a tab. -/
def isAllowed (b : UInt8) : Bool :=
  (0x20 ≤ b && b != 0x7F) || b == 0x09

/-- The value with the bytes of a text, if it may hold them. -/
def ofText? (s : String) : Option Value :=
  let bytes := Bytes.ofText s
  if bytes.all isAllowed then some bytes else none

end Value

/-- Header fields in order. -/
abbrev Headers := List (String × Value)

namespace Headers

/-- Fields with the names in lower case. -/
def ofFields (fields : List (String × Value)) : Headers :=
  fields.map fun f => (Text.lowerAscii f.1, f.2)

/-- The first value of a name. -/
def get? (name : String) (h : Headers) : Option Value :=
  h.lookup name

def getAll (name : String) (h : Headers) : List Value :=
  (h.filter fun f => f.1 == name).map Prod.snd

/-- The text of the first value of a name, if there is one and it is readable. -/
def text? (name : String) (h : Headers) : Option String :=
  (h.get? name).bind Value.text?

def append (name : String) (v : Value) (h : Headers) : Headers :=
  h ++ [(name, v)]

def erase (name : String) (h : Headers) : Headers :=
  h.filter fun f => f.1 != name

/-- Give a name one value in the place of any it had. -/
def insert (name : String) (v : Value) (h : Headers) : Headers :=
  append name v (erase name h)

@[simp] theorem getAll_append (name : String) (v : Value) (h : Headers) :
    (h.append name v).getAll name = h.getAll name ++ [v] := by
  simp [append, getAll]

@[simp] theorem getAll_insert (name : String) (v : Value) (h : Headers) :
    (h.insert name v).getAll name = [v] := by
  simp [insert, erase, getAll, append, List.filter_filter]

theorem getAll_append_of_ne {name n : String} (h : n ≠ name) (v : Value) (fields : Headers) :
    (fields.append name v).getAll n = fields.getAll n := by
  simp [append, getAll, Ne.symm h]

theorem getAll_insert_of_ne {name n : String} (h : n ≠ name) (v : Value) (fields : Headers) :
    (fields.insert name v).getAll n = fields.getAll n := by
  rw [insert, getAll_append_of_ne h, getAll, erase, List.filter_filter, getAll]
  congr 1
  refine List.filter_congr fun f _ => ?_
  by_cases hf : f.1 = n <;> simp [hf, h]

/-- The first value of a name is the first of all of them. -/
theorem get?_eq_head? (name : String) (fields : Headers) :
    fields.get? name = (fields.getAll name).head? := by
  induction fields with
  | nil => rfl
  | cons field rest ih =>
      obtain ⟨own, v⟩ := field
      by_cases same : own = name
      · simp [get?, getAll, same]
      · have other : (name == own) = false := by simpa using Ne.symm same
        rw [get?] at ih ⊢
        simpa [List.lookup_cons, getAll, other, same] using ih

theorem get?_eq_none {name : String} {fields : Headers} (h : fields.getAll name = []) :
    fields.get? name = none := by
  rw [get?_eq_head?, h, List.head?_nil]

end Headers

end Gatehouse.Http
