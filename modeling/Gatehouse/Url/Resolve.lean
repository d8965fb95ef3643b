import Gatehouse.Url.Reader

/-!
Reading addresses from a page.

A text that a browser follows may be an address by itself, or tell only what differs from the
address of the page. Two slashes begin an authority, one slash a path from the root, and other
text a path beside the page. What surrounds an address is dropped here as everywhere, and a
backslash counts as a slash.
-/

namespace Gatehouse.Url

open Text

/-- Whether an address is one of a page on the web. No other address has texts read from it. -/
def isWeb (u : Url) : Bool :=
  ["http", "https"].contains u.scheme

/-- The segments of a path; a flat one has none. -/
def items (u : Url) : List String :=
  match u.path with
  | .flat _ => []
  | .segments items => items

/-- A character that counts as a slash on the web. -/
abbrev isSlash (c : Char) : Bool :=
  endsAuthority true c

/-- Read what stands before the query, from a page. Where nothing stands, the page itself is
meant, with its query. -/
def middleFrom (base : Url) (more : Bool) (cs : List Char) : Except Fault Url :=
  match cs with
  | [] => .ok base
  | c :: rest =>
      if isSlash c then
        if rest.head?.any isSlash then readMiddle base.scheme more cs
        else .ok { base with path := .segments (segments true cs), query := none }
      else
        let beside := (slashPieces true cs).map (encode pathReserved)
        .ok { base with path := .segments (follow base.items.dropLast beside), query := none }

/-- Read what follows the scheme, if there is one, from a page. -/
def readFrom (base : Url) (cs : List Char) : Except Fault Url := do
  let (cs, fragment) := cutOff '#' cs
  let (cs, query) := cutOff '?' cs
  let u ← middleFrom base (query.isSome || fragment.isSome) cs
  return { u with
    query := (query.map (encode (queryReserved true))).or u.query
    fragment := fragment.map (encode fragmentReserved) }

/-- The address that a text leads to from a page. With the scheme of the page before it, a text
may still tell only what differs. -/
def resolve (base : Url) (s : String) : Except Fault Url :=
  if base.isWeb then
    match scheme? (trimmed s) with
    | some (scheme, cs) => if scheme = base.scheme then readFrom base cs else read s
    | none => readFrom base (trimmed s)
  else read s

end Gatehouse.Url
