import Gatehouse.Http.Message

/-!
Faults: why a handler has no answer.

A client sees a status, a fixed code and a message. The cause of an internal
fault is not shown.
-/

namespace Gatehouse

/-- Why there is no answer. -/
inductive Fault where
  | internal (cause : String)
  | notFound
  | unauthorized
  | badRequest (text : String)
  deriving DecidableEq, Repr

namespace Fault

def code : Fault → String
  | internal _ => "INTERNAL_ERROR"
  | notFound => "NOT_FOUND"
  | unauthorized => "UNAUTHORIZED"
  | badRequest _ => "BAD_REQUEST"

def status : Fault → Nat
  | internal _ => 500
  | notFound => 404
  | unauthorized => 401
  | badRequest _ => 400

def message : Fault → String
  | internal _ => "internal server error"
  | notFound => "not found"
  | unauthorized => "Authentication required"
  | badRequest text => text

def response (f : Fault) : Http.Response :=
  .ofJson f.status (.object [("code", .text f.code), ("message", .text f.message)])

end Fault

/-- Send the client on to `location`; a location that no header can hold is a
fault of the request. -/
def Http.Response.found (location : String) : Http.Response :=
  match Http.Value.ofText? location with
  | some v => (Http.Response.bare 302).mapHeaders (Http.Headers.insert "location" v)
  | none => (Fault.badRequest "invalid redirect location").response

end Gatehouse
