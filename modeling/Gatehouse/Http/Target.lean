import Gatehouse.Text.Blank

/-!
Request targets: what a request line names.

A target is a path with an optional query, or behind a scheme and an authority
a whole address. Nothing in it is decoded, and a fragment is no part of it.
-/

namespace Gatehouse.Http

/-- A request target. The stored path is empty only in an address without one. -/
structure Target where
  scheme : Option String
  authority : Option String
  rawPath : String
  query : Option String
  deriving DecidableEq, Repr

namespace Target

/-- The path: everything before the query. -/
def path (t : Target) : String :=
  if t.rawPath.isEmpty then "/" else t.rawPath

/-- The path with the query behind it, as it was written. -/
def pathAndQuery (t : Target) : String :=
  match t.query with
  | some q => t.rawPath ++ "?" ++ q
  | none => t.path

def schemeCut? : List Char → Option (List Char × List Char)
  | ':' :: '/' :: '/' :: rest => some ([], rest)
  | c :: rest =>
      if c.isAlphanum ∨ c = '+' ∨ c = '-' ∨ c = '.' then
        (schemeCut? rest).map fun parts => (c :: parts.1, parts.2)
      else none
  | [] => none

/-- A scheme, which is in lower case if it is one of the two of the web. -/
def schemeName (s : String) : String :=
  if Text.sameIgnoringCase s "http" ∨ Text.sameIgnoringCase s "https" then Text.lowerAscii s else s

/-- The target of an origin, whose scheme and authority are given. -/
def ofPathChars (scheme authority : Option String) (cs : List Char) : Target :=
  let cs := cs.takeWhile (· ≠ '#')
  match Text.cutChars '?' cs with
  | some (path, query) => ⟨scheme, authority, String.ofList path, some (String.ofList query)⟩
  | none => ⟨scheme, authority, String.ofList cs, none⟩

def read (s : String) : Target :=
  match schemeCut? s.toList with
  | some (scheme, rest) =>
      let inAuthority (c : Char) : Bool := c ≠ '/' && c ≠ '?' && c ≠ '#'
      ofPathChars (some (schemeName (String.ofList scheme)))
        (some (String.ofList (rest.takeWhile inAuthority))) (rest.dropWhile inAuthority)
  | none => ofPathChars none none s.toList

end Target

end Gatehouse.Http
