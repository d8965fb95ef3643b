import Gatehouse.Auth.Validator

/-!
Users by external name.

The first sight of a name provisions a user under the next id; every later one
finds that id again.
-/

namespace Gatehouse.Auth

/-- The ids of the names seen so far, and those that are still to be given out:
`mint n` is the id of the user who comes after `n` others. -/
structure Directory where
  mint : Nat → Uuid
  ids : List (String × Uuid)

namespace Directory

def empty (mint : Nat → Uuid) : Directory :=
  ⟨mint, []⟩

def size (d : Directory) : Nat :=
  d.ids.length

/-- The id of a name, which is provisioned when it is new. -/
def provision (d : Directory) (name : String) : Uuid × Directory :=
  match d.ids.lookup name with
  | some id => (id, d)
  | none => (d.mint d.size, { d with ids := (name, d.mint d.size) :: d.ids })

/-- The id of a name that is not empty. -/
def resolve (d : Directory) (name : String) : Except AuthFault Uuid × Directory :=
  if name.isEmpty then (.error (.unresolvable .emptyName), d)
  else
    let (id, d) := d.provision name
    (.ok id, d)

/-- The directory as a resolver: only the external name counts. -/
def resolver : Resolver Directory := fun name _ _ d =>
  let (found, d) := d.resolve name
  (atOnce found, d)

end Directory

end Gatehouse.Auth
