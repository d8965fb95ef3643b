import Gatehouse.Http.Message
import Gatehouse.Metrics
import Gatehouse.Time

/-!
The world that requests are answered in, and handlers.

A handler takes a request and the world to a response and the world after it. A
layer makes one handler from another and decides whether and how that runs.
-/

namespace Gatehouse

/-- The random bytes of one draw. -/
abbrev Seed := Vector UInt8 16

/-- What an answer may depend on or change: the clock, the metrics, the draws of
random bytes so far, and the state `outside` of the services. -/
structure World (ω : Type) where
  clock : Clock
  metrics : Metrics
  seeds : Nat → Seed
  drawn : Nat
  outside : ω

/-- A computation in the world. -/
abbrev Act (ω : Type) := StateM (World ω)

/-- What answers a request. -/
abbrev Handler (ω : Type) := Http.Request → Act ω Http.Response

/-- What stands around a handler. -/
abbrev Layer (ω : Type) := Handler ω → Handler ω

namespace Act

variable {ω α β : Type}

/-- Ask a service, which changes only its own state. -/
def ask (service : ω → α × ω) : Act ω α := fun w =>
  let (a, outside) := service w.outside
  (a, { w with outside })

/-- Count something, if it is to be counted. -/
def record (metered : Bool) (f : Metrics → Metrics) : Act ω Unit :=
  modify fun w => if metered then { w with metrics := f w.metrics } else w

def draw : Act ω Seed := fun w =>
  (w.seeds w.drawn, { w with drawn := w.drawn + 1 })

def advance (s : Span) : Act ω Unit :=
  modify fun w => { w with clock := w.clock.advance s }

/-! ### Running a computation -/

@[simp] theorem pure_apply (a : α) (w : World ω) : (pure a : Act ω α) w = (a, w) := rfl

@[simp] theorem bind_apply (x : Act ω α) (f : α → Act ω β) (w : World ω) :
    (x >>= f) w = f (x w).1 (x w).2 := rfl

@[simp] theorem map_apply (f : α → β) (x : Act ω α) (w : World ω) :
    (f <$> x) w = (f (x w).1, (x w).2) := rfl

@[simp] theorem get_apply (w : World ω) : (get : Act ω (World ω)) w = (w, w) := rfl

@[simp] theorem ask_apply (service : ω → α × ω) (w : World ω) :
    ask service w = ((service w.outside).1, { w with outside := (service w.outside).2 }) := rfl

@[simp] theorem record_apply (metered : Bool) (f : Metrics → Metrics) (w : World ω) :
    record metered f w = ((), if metered then { w with metrics := f w.metrics } else w) := rfl

@[simp] theorem draw_apply (w : World ω) :
    draw w = (w.seeds w.drawn, { w with drawn := w.drawn + 1 }) := rfl

end Act

end Gatehouse
