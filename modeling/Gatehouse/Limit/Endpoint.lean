import Gatehouse.Limit.Key

/-!
Limits of single endpoints.

A pattern is a method and a path with a colon between them. A path that ends in
`*` stands for every path that begins with what precedes the star. The pattern
of exactly the request counts first, then the one with the longest beginning.
-/

namespace Gatehouse.Limit

open Http

/-- Limits by pattern, each pattern once. -/
structure Endpoints where
  limits : List (String × Nat)
  deriving DecidableEq, Repr

namespace Endpoints

def empty : Endpoints := ⟨[]⟩

def set (e : Endpoints) (pattern : String) (limit : Nat) : Endpoints :=
  ⟨(pattern, limit) :: e.limits.filter fun p => p.1 != pattern⟩

def size (e : Endpoints) : Nat :=
  e.limits.length

/-- Limits that are set one after another. -/
def ofList (limits : List (String × Nat)) : Endpoints :=
  limits.foldl (fun e p => e.set p.1 p.2) empty

/-- The pattern of exactly one endpoint. -/
def exactly (method path : String) : String :=
  method ++ ":" ++ path

/-- The length of the beginning that a pattern with a star has in common with a
path of the method, if it stands for that path. -/
def reach? (pattern method path : String) : Option Nat := do
  let (patternMethod, patternPath) ← Text.cutChars ':' pattern.toList
  if patternMethod = method.toList ∧ patternPath.getLast? = some '*' ∧
      patternPath.dropLast.isPrefixOf path.toList then
    some patternPath.dropLast.length
  else none

/-- The patterns with a star that stand for a path of the method, by the length
of their beginnings. -/
def candidates (e : Endpoints) (method path : String) : List (Nat × Nat) :=
  e.limits.filterMap fun p => (reach? p.1 method path).map fun n => (n, p.2)

/-- The candidate with the longest beginning. -/
def longest? : List (Nat × Nat) → Option (Nat × Nat)
  | [] => none
  | c :: rest =>
      match longest? rest with
      | none => some c
      | some best => if best.1 < c.1 then some c else some best

/-- The limit of an endpoint, if a pattern stands for it. -/
def lookup? (e : Endpoints) (method path : String) : Option Nat :=
  match e.limits.lookup (exactly method path) with
  | some limit => some limit
  | none => (longest? (e.candidates method path)).map Prod.snd

/-- The limit of an endpoint, or `other` where no pattern stands for it. -/
def get (e : Endpoints) (method path : String) (other : Nat) : Nat :=
  (e.lookup? method path).getD other

def limitOf (e : Endpoints) (other : Nat) (r : Request) : Nat :=
  e.get r.method r.path other

/-- Count the requests of the endpoints with a limit, and no others. -/
def keyRule (e : Endpoints) : KeyRule :=
  .custom fun r => (e.lookup? r.method r.path).map fun _ => KeyRule.endpointKey r

end Endpoints

end Gatehouse.Limit
