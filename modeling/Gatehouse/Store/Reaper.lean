import Gatehouse.Store.Memory

/-!
The reaper, which purges a memory from time to time.

It purges at every whole multiple of its interval after its start, and ends at
the first of them that finds the memory given up. It runs on task time, not on
the clock of the memory.
-/

namespace Gatehouse

/-- A reaper: its interval, the task time since its start, and whether it has
ended. -/
structure Reaper where
  interval : Span
  elapsed : Span
  finished : Bool
  deriving DecidableEq, Repr

namespace Reaper

def minInterval : Span := Span.millis 10

def maxInterval : Span := Span.seconds 30

def start (interval : Span) : Reaper :=
  ⟨min maxInterval (max minInterval interval), 0, false⟩

/-- A multiple of the interval, the start left out, lies in the coming span. -/
def isDue (r : Reaper) (s : Span) : Bool :=
  let last := (r.elapsed + s - 1) / r.interval
  0 < s && 0 < last && r.elapsed ≤ last * r.interval

/-- Let task time pass. A memory that was given up is `none`. -/
def sleep (r : Reaper) (now : Instant) (s : Span) (m : Option Memory) : Reaper × Option Memory :=
  let later := { r with elapsed := r.elapsed + s }
  if r.finished ∨ ¬ r.isDue s then (later, m)
  else
    match m with
    | some m => (later, some (m.purge now))
    | none => ({ later with finished := true }, none)

end Reaper

end Gatehouse
