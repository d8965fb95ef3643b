import Gatehouse.Store.Memory

/-!
A memory on a clock that has a last reading.

A clock keeps the seconds of a reading as a whole number of 64 bits with a sign, so
readings end, and a sum past the last one stops the thread that forms it. Such sums are
formed where a window opens, and where what is left of one is told: it is added to the wall
clock for the time of the reset, and rounded up to seconds. A strict memory replies as the
memory in it, and keeps the first sum that could not be held. Whatever comes after that sum
does not happen any more, so a request that leaves an overflow behind has no response.
-/

namespace Gatehouse

/-- The last reading that a clock holds, in nanoseconds. -/
def Clock.last : Nat :=
  Span.seconds (Text.Decimal.max63 + 1) - 1

/-- A sum that could not be held. -/
inductive Overflow where
  /-- The end of a window, on the monotonic clock. -/
  | windowEnd
  /-- The time of a reset, on the wall clock. -/
  | resetTime
  /-- A number of seconds that was rounded up, in 64 bits. -/
  | rounding
  deriving DecidableEq, Repr

namespace Overflow

/-- What counting a key runs into: a key without a live entry opens a window. -/
def ofIncrement (clock : Clock) (m : Memory) (key : String) (window : Span) : Option Overflow :=
  if (m.live? clock.now key).isNone ∧ Clock.last < clock.now + window then some windowEnd
  else none

/-- What telling the rest of a window runs into. -/
def ofLeft (clock : Clock) (left : Span) : Option Overflow :=
  if Clock.last < clock.wall + left then some resetTime
  else if Text.Decimal.max64 < clock.resetAt left ∨ Text.Decimal.max64 < Span.ceilSeconds left then
    some rounding
  else none

end Overflow

structure StrictMemory where
  memory : Memory
  /-- The sum at which the thread stopped. -/
  overflow : Option Overflow
  deriving DecidableEq, Repr

namespace StrictMemory

def empty (capacity : Nat) : StrictMemory :=
  ⟨.empty capacity, none⟩

def store : Store StrictMemory where
  increment clock key window m :=
    let (n, memory) := m.memory.increment clock.now key window
    (.ready n, ⟨memory, m.overflow.or (Overflow.ofIncrement clock m.memory key window)⟩)
  count clock key m := (.ready (m.memory.count clock.now key), m)
  ttl clock key m :=
    let left := m.memory.ttl clock.now key
    (.ready left, { m with overflow := m.overflow.or (Overflow.ofLeft clock left) })

end StrictMemory

end Gatehouse
