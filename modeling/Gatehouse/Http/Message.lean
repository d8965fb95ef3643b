import Gatehouse.Auth.Claims
import Gatehouse.Http.Headers
import Gatehouse.Http.Target
import Gatehouse.Ip
import Gatehouse.Json.Writer

/-!
Requests, with what earlier stages found out about them, and responses.
-/

namespace Gatehouse.Http

/-- What the stages before a handler know of a request. -/
structure Context where
  user : Option Auth.User := none
  profile : Option Auth.Profile := none
  workspace : Option Uuid := none

/-- A request. -/
structure Request where
  method : String
  target : Target
  headers : Headers
  peer : Option Ip := none
  context : Context := {}

namespace Request

def path (r : Request) : String :=
  r.target.path

def withUser (r : Request) (user : Auth.User) : Request :=
  { r with context := { r.context with user := some user, profile := some user.profile } }

def withWorkspace (r : Request) (workspace : Uuid) : Request :=
  { r with context := { r.context with workspace := some workspace } }

end Request

/-- The body of a response. -/
inductive Body where
  | empty
  | text (content : String)
  | json (content : Json)

/-- A response. -/
structure Response where
  status : Nat
  headers : Headers
  body : Body

namespace Response

/-- The header that names the kind of a body. -/
def contentType : String := "content-type"

/-- A response without a body. -/
def bare (status : Nat) : Response :=
  ⟨status, [], .empty⟩

/-- A response with a text of the given kind. -/
def ofText (status : Nat) (kind content : String) : Response :=
  ⟨status, [(contentType, Bytes.ofText kind)], .text content⟩

def plain (status : Nat) (content : String) : Response :=
  ofText status "text/plain; charset=utf-8" content

def html (status : Nat) (content : String) : Response :=
  ofText status "text/html; charset=utf-8" content

def ofJson (status : Nat) (content : Json) : Response :=
  ⟨status, [(contentType, Bytes.ofText "application/json")], .json content⟩

def mapHeaders (f : Headers → Headers) (r : Response) : Response :=
  { r with headers := f r.headers }

/-- The response as it answers a request with the given method: one for the
headers alone gets no body. -/
def answering (method : String) (r : Response) : Response :=
  if method = "HEAD" then { r with body := .empty } else r

/-- Give a header the value of a text, if it can be one. -/
def insertText (name text : String) (r : Response) : Response :=
  match Value.ofText? text with
  | some v => r.mapHeaders (Headers.insert name v)
  | none => r

@[simp] theorem status_mapHeaders (f : Headers → Headers) (r : Response) :
    (r.mapHeaders f).status = r.status := rfl

@[simp] theorem body_mapHeaders (f : Headers → Headers) (r : Response) :
    (r.mapHeaders f).body = r.body := rfl

@[simp] theorem headers_mapHeaders (f : Headers → Headers) (r : Response) :
    (r.mapHeaders f).headers = f r.headers := rfl

end Response

end Gatehouse.Http
