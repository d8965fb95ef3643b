import Gatehouse.Http.Message

/-!
What requests are counted by.

A rule maps a request to the key of its counter, or to none when the request is
not counted.
-/

namespace Gatehouse.Limit

open Http

/-- Who sent a request: the address that a proxy tells in one of two headers,
else the address of the peer. -/
def clientId (peer : Option Ip) (headers : Headers) : String :=
  let told (name : String) (read : String → String) : Option String :=
    ((headers.text? name).map read).filter fun id => !id.isEmpty
  match told "x-real-ip" Text.trim with
  | some id => id
  | none =>
      match told "x-forwarded-for" fun hops => Text.trim (Text.before ',' hops) with
      | some id => id
      | none => (peer.map Ip.write).getD "unknown"

/-- Who sent a request. -/
def clientOf (r : Request) : String :=
  clientId r.peer r.headers

/-- What requests are counted by. -/
inductive KeyRule where
  | everything
  | user
  | client
  | endpoint
  | workspace
  | custom (key : Request → Option String)

namespace KeyRule

def userKey (r : Request) : Option String :=
  (r.context.user.filter fun u => !u.id.isNil).map fun u => "user:" ++ u.id.write

def clientKey (r : Request) : String :=
  "ip:" ++ clientOf r

/-- The key of a request by its method, path and client. -/
def endpointKey (r : Request) : String :=
  r.method ++ ":" ++ r.path ++ ":" ++ clientOf r

def workspaceKey (r : Request) : Option String :=
  r.context.workspace.map fun id => "workspace:" ++ id.write

def key? : KeyRule → Request → Option String
  | everything, _ => some "global"
  | user, r => userKey r
  | client, r => some (clientKey r)
  | endpoint, r => some (endpointKey r)
  | workspace, r => workspaceKey r
  | custom f, r => f r

/-- A short name. -/
def name : KeyRule → String
  | everything => "global"
  | user => "user"
  | client => "ip"
  | endpoint => "endpoint"
  | workspace => "workspace"
  | custom _ => "custom"

end KeyRule

end Gatehouse.Limit
