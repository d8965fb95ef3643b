import Gatehouse.Text.Decimal

/-!
Spans of time, and the clock that a store and its limiters share.

Spans and instants are whole nanoseconds. A clock has two readings that move
together: a monotonic one, on which windows open and end, and the wall clock,
from which only reset times are written.
-/

namespace Gatehouse

/-- A span of time in nanoseconds. -/
abbrev Span := Nat

/-- A monotonic reading in nanoseconds. -/
abbrev Instant := Nat

namespace Span

def micros (n : Nat) : Span := n * 1000

def millis (n : Nat) : Span := n * 1000000

def seconds (n : Nat) : Span := n * 1000000000

def toMillis (s : Span) : Nat := s / 1000000

/-- The seconds of a span, a part of one counted whole. -/
def ceilSeconds (s : Span) : Nat := (s + 999999999) / 1000000000

/-- The digits of a fraction of `unit`, without zeros at the end. -/
def fractionDigits (part unit : Nat) : List Char :=
  let width := (Nat.toDigits 10 unit).length - 1
  let digits := Nat.toDigits 10 part
  ((List.replicate (width - digits.length) '0' ++ digits).reverse.dropWhile (· = '0')).reverse

/-- A span as a number of `unit` nanoseconds. -/
def inUnit (s unit : Nat) (name : String) : String :=
  let fraction := fractionDigits (s % unit) unit
  let whole := (Text.Decimal.ofNat (s / unit)).toList
  String.ofList (whole ++ (if fraction = [] then [] else '.' :: fraction)) ++ name

/-- A span in the largest unit of which it has at least one. -/
def write (s : Span) : String :=
  if seconds 1 ≤ s then inUnit s (seconds 1) "s"
  else if millis 1 ≤ s then inUnit s (millis 1) "ms"
  else if micros 1 ≤ s then inUnit s (micros 1) "µs"
  else inUnit s 1 "ns"

end Span

/-- The two readings of a clock. The wall clock counts from the epoch and may
lie before it. -/
structure Clock where
  now : Instant
  wall : Int
  deriving DecidableEq, Repr

namespace Clock

/-- The clock a span later. -/
def advance (c : Clock) (s : Span) : Clock :=
  ⟨c.now + s, c.wall + s⟩

/-- The first whole second since the epoch at which a span from now has passed;
zero when that lies before the epoch. -/
def resetAt (c : Clock) (ttl : Span) : Nat :=
  Span.ceilSeconds (c.wall + ttl).toNat

@[simp] theorem now_advance (c : Clock) (s : Span) : (c.advance s).now = c.now + s := rfl

@[simp] theorem wall_advance (c : Clock) (s : Span) : (c.advance s).wall = c.wall + s := rfl

end Clock

end Gatehouse
