/-!
Text inside HTML: the characters that could end a text or an attribute value
are written as character references.
-/

namespace Gatehouse.Text.Html

/-- How one character is written. -/
def escapeChar : Char → List Char
  | '&' => "&amp;".toList
  | '<' => "&lt;".toList
  | '>' => "&gt;".toList
  | '"' => "&quot;".toList
  | '\'' => "&#x27;".toList
  | '/' => "&#x2F;".toList
  | c => [c]

/-- A text as it is written inside HTML. -/
def escape (s : String) : String :=
  String.ofList (s.toList.flatMap escapeChar)

end Gatehouse.Text.Html
