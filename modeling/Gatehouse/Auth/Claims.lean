import Gatehouse.Json.Record
import Gatehouse.Uuid

/-!
The identity that a session token carries.

A validator may know a user only by an external name; the internal id of such
claims is nil until a resolver fills it in. A user is known to a request by
claims whose id is filled in, and to older pages by a `Profile`.
-/

namespace Gatehouse.Auth

/-- What is claimed of a user. `raw` keeps the claims as the validator saw them. -/
structure Claims where
  id : Uuid
  externalId : String
  username : String
  email : String
  roles : List String
  groups : List String
  isAdmin : Bool
  raw : Json

/-- The user of a request. -/
abbrev User := Claims

/-- What older pages show of a user. -/
structure Profile where
  id : String
  email : String
  username : String
  displayName : String
  deriving DecidableEq, Repr

namespace Claims

/-- Claims that say nothing but an id. -/
def ofId (id : Uuid) : Claims :=
  ⟨id, "", "", "", [], [], false, .null⟩

/-- The internal id still has to be looked up. -/
def needsResolution (c : Claims) : Bool :=
  c.id.isNil

def hasRole (c : Claims) (role : String) : Bool :=
  c.roles.contains role

/-- The profile of a user: the email stands in for a missing name. -/
def profile (c : Claims) : Profile where
  id := c.id.write
  email := c.email
  username := c.username
  displayName := if c.username.isEmpty then c.email else c.username

/-- The members of written claims, apart from the raw ones. -/
def members (c : Claims) : List (String × Json) :=
  [("user_id", .text c.id.write), ("external_user_id", .text c.externalId),
    ("username", .text c.username), ("email", .text c.email), ("roles", .texts c.roles),
    ("groups", .texts c.groups), ("is_system_admin", .bool c.isAdmin)]

def toJson (c : Claims) : Json :=
  .object (c.members ++ [("raw", c.raw)])

def fieldNames : List String :=
  ["user_id", "external_user_id", "username", "email", "roles", "groups", "is_system_admin", "raw"]

/-- Read claims; only the raw ones may be left out. -/
def read? (j : Json) : Option Claims := do
  let fields ← Json.record? fieldNames 7 j
  match fields with
  | [id, externalId, username, email, roles, groups, isAdmin, raw] =>
      some {
        id := ← Json.required (fun j => j.text?.bind Uuid.read?) id
        externalId := ← Json.required Json.text? externalId
        username := ← Json.required Json.text? username
        email := ← Json.required Json.text? email
        roles := ← Json.required Json.texts? roles
        groups := ← Json.required Json.texts? groups
        isAdmin := ← Json.required Json.bool? isAdmin
        raw := raw.getD .null }
  | _ => none

end Claims

def Profile.toJson (p : Profile) : Json :=
  .object [("id", .text p.id), ("email", .text p.email), ("username", .text p.username),
    ("display_name", .text p.displayName)]

end Gatehouse.Auth
