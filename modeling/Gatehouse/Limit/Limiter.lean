import Gatehouse.Limit.Endpoint
import Gatehouse.Limit.Window

/-!
Limiters: layers that let at most so many requests of a key through in a window.

A limiter counts a request before it decides. It passes a request without
counting it when it has no store, when the path is to be skipped, or when the
rule gives no key; it passes a request when the store gives no answer, so a
failing store never blocks traffic.
-/

namespace Gatehouse.Limit

open Http

def rejectionCode : String := "RATE_LIMIT_EXCEEDED"

def defaultMessage : String := "Rate limit exceeded. Please try again later."

/-- How long a limiter waits for its store. -/
def defaultDeadline : Span := Span.millis 250

def rejection (message : String) : Response :=
  .ofJson 429 (.object [("code", .text rejectionCode), ("message", .text message)])

/-- A limit and as much of a burst on top of it as fits 64 bits. -/
def capped (limit burst : Nat) : Nat :=
  limit + min burst (Text.Decimal.max64 - limit)

/-- A limiter whose store keeps its state in `ω`. -/
structure Limiter (ω : Type) where
  /-- Requests in a window. -/
  limit : Nat
  window : Span
  /-- Requests on top of the limit. -/
  burst : Nat := 0
  /-- Paths that are never limited. -/
  skipPaths : List String := []
  key : KeyRule := .client
  /-- What answers a rejected request, given the rest of the window. -/
  onExceed : Option (Request → Span → Response) := none
  /-- The limit of a request, in the place of the fixed one. -/
  limitOf : Option (Request → Nat) := none
  store : Option (Store ω) := none
  message : String := defaultMessage
  deadline : Span := defaultDeadline
  /-- The name in the metrics. -/
  name : String := KeyRule.client.name
  metered : Bool := false

namespace Limiter

variable {ω : Type}

/-- A hundred requests a minute. -/
def default : Limiter ω :=
  { limit := 100, window := Span.seconds 60 }

/-- Count by a rule. A limiter that bears the name of its rule takes the name of
the new one. -/
def keyedBy (l : Limiter ω) (key : KeyRule) : Limiter ω :=
  { l with key, name := if l.name = l.key.name then key.name else l.name }

/-- How many requests like this one pass in a window. -/
def capFor (l : Limiter ω) (r : Request) : Nat :=
  capped (match l.limitOf with | some f => f r | none => l.limit) l.burst

/-- The key of a request that is to be counted. -/
def keyFor (l : Limiter ω) (r : Request) : Option String :=
  if l.skipPaths.contains r.path then none
  else (l.key.key? r).filter fun key => !key.isEmpty

def reject (l : Limiter ω) (r : Request) (w : Window) : Response :=
  (match l.onExceed with | some f => f r w.ttl | none => rejection l.message).mapHeaders
    w.tellRejected

/-- Decide on a request that counts against a key. -/
def gate (l : Limiter ω) (store : Store ω) (key : String) : Layer ω := fun next r => do
  match ← check store l.deadline key (l.capFor r) l.window with
  | .error _ =>
      Act.record l.metered Metrics.recordStoreFault
      next r
  | .ok w =>
      if w.exceeded then
        Act.record l.metered (Metrics.recordRejection l.name)
        pure (l.reject r w)
      else
        let response ← next r
        pure (response.mapHeaders w.tell)

/-- The limiter as a layer. -/
def guard (l : Limiter ω) : Layer ω := fun next r =>
  match l.store, l.keyFor r with
  | some store, some key => l.gate store key next r
  | _, _ => next r

end Limiter

end Gatehouse.Limit
