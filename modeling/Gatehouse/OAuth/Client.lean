import Gatehouse.Json.Reader
import Gatehouse.OAuth.Provider

/-!
The client of a provider on the web.

A login is sent to the provider's address with five pairs behind its query. A
code is posted as a form, and a reply of success is read as a grant; any other
reply is a rejection, with the reason that it gives.
-/

namespace Gatehouse.OAuth

/-- A client of a provider. -/
structure Client where
  authorizeUrl : Url
  tokenUrl : Url
  clientId : String
  clientSecret : Option String
  scopes : String
  deriving DecidableEq, Repr

/-- A form that is posted to an address. -/
structure Post where
  url : Url
  body : String
  deriving DecidableEq, Repr

/-- A reply to a post, with the text of its body. -/
structure PostReply where
  status : Nat
  body : String
  deriving DecidableEq, Repr

/-- What carries a post to its address: no reply may come back. -/
abbrev Network (ω : Type) := Post → ω → Option PostReply × ω

namespace PostReply

/-- The reasons that stand for the statuses of a reply. -/
def reasons : List (Nat × String) :=
  [(100, "Continue"), (101, "Switching Protocols"), (102, "Processing"), (200, "OK"),
    (201, "Created"), (202, "Accepted"), (203, "Non Authoritative Information"),
    (204, "No Content"), (205, "Reset Content"), (206, "Partial Content"), (207, "Multi-Status"),
    (208, "Already Reported"), (226, "IM Used"), (300, "Multiple Choices"),
    (301, "Moved Permanently"), (302, "Found"), (303, "See Other"), (304, "Not Modified"),
    (305, "Use Proxy"), (307, "Temporary Redirect"), (308, "Permanent Redirect"),
    (400, "Bad Request"), (401, "Unauthorized"), (402, "Payment Required"), (403, "Forbidden"),
    (404, "Not Found"), (405, "Method Not Allowed"), (406, "Not Acceptable"),
    (407, "Proxy Authentication Required"), (408, "Request Timeout"), (409, "Conflict"),
    (410, "Gone"), (411, "Length Required"), (412, "Precondition Failed"),
    (413, "Payload Too Large"), (414, "URI Too Long"), (415, "Unsupported Media Type"),
    (416, "Range Not Satisfiable"), (417, "Expectation Failed"), (418, "I'm a teapot"),
    (421, "Misdirected Request"), (422, "Unprocessable Entity"), (423, "Locked"),
    (424, "Failed Dependency"), (425, "Too Early"), (426, "Upgrade Required"),
    (428, "Precondition Required"), (429, "Too Many Requests"),
    (431, "Request Header Fields Too Large"), (451, "Unavailable For Legal Reasons"),
    (500, "Internal Server Error"), (501, "Not Implemented"), (502, "Bad Gateway"),
    (503, "Service Unavailable"), (504, "Gateway Timeout"), (505, "HTTP Version Not Supported"),
    (506, "Variant Also Negotiates"), (507, "Insufficient Storage"), (508, "Loop Detected"),
    (510, "Not Extended"), (511, "Network Authentication Required")]

def isSuccess (r : PostReply) : Bool :=
  200 ≤ r.status && r.status < 300

def statusText (r : PostReply) : String :=
  "status " ++ Text.Decimal.ofNat r.status ++ " " ++
    (reasons.lookup r.status).getD "<unknown status code>"

/-- The reason that the body of a rejection gives. -/
def givenReason? (r : PostReply) : Option String := do
  match ← Json.record? ["error", "error_description"] 1 (← Json.read? r.body) with
  | [error, description] =>
      let error ← Json.required Json.text? error
      match ← Json.nullable Json.text? description with
      | some description => some (error ++ ": " ++ description)
      | none => some error
  | _ => none

def grant (r : PostReply) : Except ExchangeFault Grant :=
  if !r.isSuccess then .error (.rejected (r.givenReason?.getD r.statusText))
  else
    match (Json.read? r.body).bind Grant.read? with
    | none => .error (.malformed .notAGrant)
    | some g => if g.accessToken.isEmpty then .error (.malformed .emptyToken) else .ok g

end PostReply

namespace Client

/-- The client of a provider whose addresses can be read. -/
def ofSettings (s : Settings) : Except Url.Fault Client := do
  let authorizeUrl ← Url.read s.authorizeUrl
  let tokenUrl ← Url.read s.tokenUrl
  return ⟨authorizeUrl, tokenUrl, s.clientId, s.clientSecret, s.scopes⟩

/-- The pairs that a login takes to the provider. -/
def loginPairs (c : Client) (redirectUri state : String) : List Text.Form.Pair :=
  [("response_type", "code"), ("client_id", c.clientId), ("redirect_uri", redirectUri),
    ("scope", c.scopes), ("state", state)]

/-- Where a login goes on. -/
def authorizationUrl (c : Client) (redirectUri state : String) : Url :=
  c.authorizeUrl.addQuery (c.loginPairs redirectUri state)

/-- The pairs of the form that trades a code. -/
def exchangePairs (c : Client) (code redirectUri : String) : List Text.Form.Pair :=
  [("grant_type", "authorization_code"), ("code", code), ("redirect_uri", redirectUri),
    ("client_id", c.clientId)] ++
    (match c.clientSecret with | some secret => [("client_secret", secret)] | none => [])

/-- The form that trades a code, without the fragment of its address. -/
def exchangePost (c : Client) (code redirectUri : String) : Post :=
  ⟨{ c.tokenUrl with fragment := none }, Text.Form.encode (c.exchangePairs code redirectUri)⟩

/-- What a reply, or none, to such a form comes to. -/
def settle : Option PostReply → Except ExchangeFault Grant
  | some reply => reply.grant
  | none => .error .transport

/-- The provider that a client reaches over a network. -/
def provider (c : Client) (network : Network ω) : Provider ω where
  authorizationUrl redirectUri state := (c.authorizationUrl redirectUri state).write
  exchange code redirectUri w :=
    let (reply, w) := network (c.exchangePost code redirectUri) w
    (settle reply, w)

end Client

end Gatehouse.OAuth
