/-!
Replies of services that may fail or hang.

A service keeps its state in a type `ω` that only it looks into. An operation
takes the state and gives a reply with the state after it. A reply that never
comes is cut off by the deadline of whoever waits for it; one that is there at
once is in time for every deadline, zero included.
-/

namespace Gatehouse

/-- A reply: a value, a failure with its reason, or none at all. -/
inductive Reply (ε α : Type) where
  | ready (value : α)
  | failed (reason : ε)
  | stalled
  deriving DecidableEq, Repr

namespace Reply

variable {ε α β : Type}

def map (f : α → β) : Reply ε α → Reply ε β
  | ready a => ready (f a)
  | failed e => failed e
  | stalled => stalled

/-- What the waiting side makes of a reply: `late` stands for none in time. -/
def within (late : ε) : Reply ε α → Except ε α
  | ready a => .ok a
  | failed e => .error e
  | stalled => .error late

end Reply

end Gatehouse
