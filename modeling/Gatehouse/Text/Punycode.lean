/-!
Writing any label of a domain name with letters, digits and hyphens.

The ASCII characters of a label come first. Each other one is then inserted, in
the order of the code points, and the distance to the next insertion is written
as a number in digits of variable weight whose thresholds follow a bias.
-/

namespace Gatehouse.Text.Punycode

/-- The code point from which insertions count. -/
def firstPoint : Nat := 0x80

def firstBias : Nat := 72

/-- The character of a digit below thirty-six. -/
def symbol (d : Nat) : Char :=
  if d < 26 then Char.ofNat ('a'.toNat + d) else Char.ofNat ('0'.toNat + (d - 26))

/-- The digit of a character. -/
def value? (c : Char) : Option Nat :=
  if c.isLower then some (c.toNat - 'a'.toNat)
  else if c.isUpper then some (c.toNat - 'A'.toNat)
  else if c.isDigit then some (c.toNat - '0'.toNat + 26)
  else none

/-- The threshold of a place: a digit below it ends its number. -/
def threshold (bias place : Nat) : Nat :=
  min 26 (max 1 (place - bias))

/-- Divide a distance by thirty-five until it is small, and count the places. -/
def spread (distance : Nat) : Nat × Nat :=
  if 455 < distance then
    let (small, places) := spread (distance / 35)
    (small, places + 36)
  else (distance, 0)
termination_by distance
decreasing_by exact Nat.div_lt_self (by omega) (by omega)

/-- The bias after a distance among so many characters. -/
def adapt (distance size : Nat) (isFirst : Bool) : Nat :=
  let halved := if isFirst then distance / 700 else distance / 2
  let (small, places) := spread (halved + halved / size)
  places + 36 * small / (small + 38)

/-! ### Writing -/

/-- The digits of a distance, from a place on. -/
def distanceDigits (bias place distance : Nat) : List Char :=
  let t := threshold bias place
  if distance < t then [symbol distance]
  else
    symbol (t + (distance - t) % (36 - t)) ::
      distanceDigits bias (place + 36) ((distance - t) / (36 - t))
termination_by distance
decreasing_by
  have low : 1 ≤ threshold bias place := by unfold threshold; omega
  exact Nat.lt_of_le_of_lt (Nat.div_le_self _ _) (by omega)

/-- What is written so far: the characters, the distance to the place that comes
next, the bias, and how many characters of the label are in. -/
structure Writing where
  out : List Char
  distance : Nat
  bias : Nat
  inserted : Nat

/-- Pass one character of the label while `point` is inserted. -/
def Writing.pass (basic point : Nat) (w : Writing) (c : Char) : Writing :=
  if c.toNat < point then { w with distance := w.distance + 1 }
  else if c.toNat = point then
    { out := w.out ++ distanceDigits w.bias 36 w.distance
      distance := 0
      bias := adapt w.distance (w.inserted + 1) (w.inserted == basic)
      inserted := w.inserted + 1 }
  else w

/-- Insert every character with a code point of an ascending list. -/
def Writing.insertAll (label : List Char) (basic : Nat) : List Nat → Nat → Writing → Writing
  | [], _, w => w
  | point :: later, reached, w =>
      let start := { w with distance := w.distance + (point - reached) * (w.inserted + 1) }
      let w := label.foldl (Writing.pass basic point) start
      insertAll label basic later (point + 1) { w with distance := w.distance + 1 }

def encode (label : List Char) : List Char :=
  let basic := label.filter fun c => c.toNat < firstPoint
  let points := ((label.map Char.toNat).filter fun n => firstPoint ≤ n).eraseDups.mergeSort
  let front := if basic = [] then [] else basic ++ ['-']
  (Writing.insertAll label basic.length points firstPoint
    ⟨front, 0, firstBias, basic.length⟩).out

/-! ### Reading -/

/-- Read the digits of a distance, from a place and its weight on. -/
def readDistance (bias place weight distance : Nat) : List Char → Option (Nat × List Char)
  | [] => none
  | c :: rest =>
      match value? c with
      | none => none
      | some d =>
          let t := threshold bias place
          if d < t then some (distance + d * weight, rest)
          else readDistance bias (place + 36) (weight * (36 - t)) (distance + d * weight) rest

/-- Insert characters into a label until the text is read. Every one takes a
character of the text, so its length is enough fuel. -/
def readAll : Nat → Nat → Nat → Nat → List Char → List Char → Option (List Char)
  | _, _, _, _, label, [] => some label
  | 0, _, _, _, _, _ => none
  | fuel + 1, bias, reached, start, label, cs => do
      let (stop, rest) ← readDistance bias 36 1 start cs
      let size := label.length + 1
      let point := reached + stop / size
      if point.isValidChar then
        readAll fuel (adapt (stop - start) size (start == 0)) point (stop % size + 1)
          (label.insertIdx (stop % size) (Char.ofNat point)) rest
      else none

def decode? (cs : List Char) : Option (List Char) :=
  let tail := (cs.reverse.takeWhile (· ≠ '-')).reverse
  readAll cs.length firstBias firstPoint 0 (cs.take (cs.length - tail.length - 1)) tail

end Gatehouse.Text.Punycode
