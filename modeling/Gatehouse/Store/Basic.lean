import Gatehouse.Reply
import Gatehouse.Time

/-!
Stores of fixed-window counters.

A store keeps one counter for each key. The window of a counter opens with its
first increment and is never extended by a later one; once it has ended the key
reads as absent and the next increment opens a new window.
-/

namespace Gatehouse

/-- Why a store gave no answer. -/
inductive StoreFault where
  | transport (reason : String)
  | timeout (deadline : Span)
  deriving DecidableEq, Repr

def StoreFault.message : StoreFault → String
  | .transport reason => "store transport error: " ++ reason
  | .timeout deadline => "store operation timed out after " ++ Span.write deadline

/-- A store with its state in `ω`. -/
structure Store (ω : Type) where
  /-- Add one to a key and give the new count; an absent key starts at one with
  a window of the given length. -/
  increment : Clock → String → Span → ω → Reply String Nat × ω
  /-- The count of a key, zero when absent. -/
  count : Clock → String → ω → Reply String Nat × ω
  /-- What is left of the window of a key, zero when absent. -/
  ttl : Clock → String → ω → Reply String Span × ω

namespace Store

variable {ω ι α : Type}

/-- What a caller with a deadline makes of the reply of a store. -/
def settle (deadline : Span) : Reply String α → Except StoreFault α
  | .ready a => .ok a
  | .failed reason => .error (.transport reason)
  | .stalled => .error (.timeout deadline)

/-- An operation on a part of a larger state. -/
def onPart (get : ω → ι) (put : ι → ω → ω) (op : ι → α × ι) (w : ω) : α × ω :=
  let (a, part) := op (get w)
  (a, put part w)

/-- A store that keeps its state in a part of a larger one. -/
def lift (get : ω → ι) (put : ι → ω → ω) (s : Store ι) : Store ω where
  increment clock key window := onPart get put (s.increment clock key window)
  count clock key := onPart get put (s.count clock key)
  ttl clock key := onPart get put (s.ttl clock key)

end Store

end Gatehouse
