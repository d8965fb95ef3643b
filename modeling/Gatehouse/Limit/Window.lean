import Gatehouse.Http.Message
import Gatehouse.Store.Basic
import Gatehouse.World

/-!
The state of a counter right after a request was counted, and the headers that
tell a client of it.
-/

namespace Gatehouse.Limit

open Http

def limitHeader : String := "x-ratelimit-limit"

/-- The header of the requests that are left. -/
def remainingHeader : String := "x-ratelimit-remaining"

def resetHeader : String := "x-ratelimit-reset"

def retryHeader : String := "retry-after"

/-- A counted request: its number in the window, the cap, and what is left of
the window. -/
structure Window where
  count : Nat
  cap : Nat
  ttl : Span
  resetAt : Nat
  deriving DecidableEq, Repr

namespace Window

/-- The window of a request counted now. -/
def counted (clock : Clock) (count cap : Nat) (ttl : Span) : Window :=
  ⟨count, cap, ttl, clock.resetAt ttl⟩

def remaining (w : Window) : Nat :=
  w.cap - w.count

/-- The request is past the cap. -/
def exceeded (w : Window) : Bool :=
  w.cap < w.count

/-- The whole seconds after which a new window has begun, at least one. -/
def retryAfter (w : Window) : Nat :=
  max 1 (Span.ceilSeconds w.ttl)

def number (name : String) (n : Nat) (h : Headers) : Headers :=
  h.insert name (Bytes.ofText (Text.Decimal.ofNat n))

def writeHeaders (w : Window) (h : Headers) : Headers :=
  number resetHeader w.resetAt
    (number remainingHeader w.remaining (number limitHeader w.cap h))

/-- The remaining requests that headers tell of already. -/
def told? (h : Headers) : Option Nat :=
  (h.text? remainingHeader).bind fun t =>
    (Text.Decimal.readNat Text.Decimal.max64 t).toOption

/-- Write the headers, unless they tell of as few or fewer remaining requests
already. -/
def tell (w : Window) (h : Headers) : Headers :=
  match told? h with
  | some n => if n ≤ w.remaining then h else w.writeHeaders h
  | none => w.writeHeaders h

/-- Write the headers of a rejected request. -/
def tellRejected (w : Window) (h : Headers) : Headers :=
  number retryHeader w.retryAfter (w.writeHeaders h)

end Window

/-- Count a request against a key. Without the rest of the window, the whole of
it is assumed to be left. -/
def check (store : Store ω) (deadline : Span) (key : String) (cap : Nat) (window : Span) :
    Act ω (Except StoreFault Window) := do
  let clock := (← get).clock
  match Store.settle deadline (← Act.ask (store.increment clock key window)) with
  | .error e => pure (.error e)
  | .ok count =>
      match Store.settle deadline (← Act.ask (store.ttl clock key)) with
      | .error _ => pure (.ok (Window.counted clock count cap window))
      | .ok ttl => pure (.ok (Window.counted clock count cap ttl))

end Gatehouse.Limit
