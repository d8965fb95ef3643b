import Gatehouse.Http.Headers
import Gatehouse.Text.Decimal

/-!
Cookies on the wire.

A request carries pairs `name=value` separated by `;`. A response sets a cookie
with its value and attributes.
-/

namespace Gatehouse.Http.Cookie

/-- A name and its value. -/
abbrev Pair := String × String

/-- Read one piece between two `;`: a piece without `=` or with an empty name
is no pair. -/
def pair? (piece : List Char) : Option Pair :=
  match Text.cutChars '=' piece with
  | none => none
  | some (name, value) =>
      let name := Text.trimChars name
      if name = [] then none else some (String.ofList name, String.ofList (Text.trimChars value))

/-- The pairs of one header value that is text. -/
def pairsOf (text : String) : List Pair :=
  (Text.pieces ';' text.toList).filterMap pair?

/-- The pairs of all cookie headers that are text, in order. -/
def pairs (headers : Headers) : List Pair :=
  ((headers.getAll "cookie").filterMap Value.text?).flatMap pairsOf

/-- A cookie that a response sets. It is hidden from scripts and holds for every
path. -/
structure Setting where
  name : String
  value : String
  sameSite : Bool
  secure : Bool
  maxAge : Int
  deriving DecidableEq, Repr

def Setting.write (c : Setting) : String :=
  c.name ++ "=" ++ c.value ++ "; HttpOnly" ++ (if c.sameSite then "; SameSite=Lax" else "") ++
    (if c.secure then "; Secure" else "") ++ "; Path=/; Max-Age=" ++ Text.Decimal.ofInt c.maxAge

end Gatehouse.Http.Cookie
