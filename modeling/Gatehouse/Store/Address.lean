import Gatehouse.Url.Reader

/-!
Addresses of key-value servers.

A server is reached over the network or over a socket in the file system. The
address also says which database to use and who to be.
-/

namespace Gatehouse

/-- Where a server listens. -/
inductive ServerPlace where
  | network (host : Host) (port : Nat)
  | socket (path : String)
  deriving DecidableEq, Repr

/-- The address of a server. -/
structure ServerAddress where
  place : ServerPlace
  database : Int
  username : Option String
  password : Option String
  deriving DecidableEq, Repr

namespace ServerAddress

/-- Why a text is no address of a server. -/
inductive Fault where
  | unreadable
  | noHost
  | encryption
  | database
  | username
  | password
  | protocol
  | noPath
  deriving DecidableEq, Repr

def Fault.text : Fault → String
  | unreadable => "Redis URL did not parse"
  | noHost => "Missing hostname"
  | encryption => "can't connect with TLS, the feature is not enabled"
  | database => "Invalid database number"
  | username => "Username is not valid UTF-8 string"
  | password => "Password is not valid UTF-8 string"
  | protocol => "Invalid protocol version"
  | noPath => "Missing path"

def Fault.message (f : Fault) : String :=
  f.text ++ "- InvalidClientConfig"

def usualPort : Nat := 6379

/-- The last value of a name in the query of an address. -/
def parameter? (u : Url) (name : String) : Option String :=
  u.queryPairs.reverse.lookup name

def databaseOf (digits : String) : Except Fault Int :=
  (Text.Decimal.readInt digits).mapError fun _ => .database

/-- Check that an address names a known version of the protocol, or none. -/
def checkProtocol (u : Url) : Except Fault Unit :=
  match parameter? u "protocol" with
  | none => .ok ()
  | some v => if ["2", "resp2", "3", "resp3"].contains v then .ok () else .error .protocol

/-- A text with its escapes read, if there is one. -/
def decoded (fault : Fault) (s : String) : Except Fault (Option String) :=
  if s.isEmpty then .ok none
  else
    match Text.Percent.decodeText? s with
    | some t => .ok (some t)
    | none => .error fault

def trimSlashes (s : String) : String :=
  String.ofList ((s.toList.dropWhile (· = '/')).reverse.dropWhile (· = '/')).reverse

def ofNetworkUrl (u : Url) : Except Fault ServerAddress := do
  match u.host with
  | none | some (.name "") => throw .noHost
  | some host =>
      if u.scheme = "rediss" then throw .encryption
      let path := trimSlashes u.pathText
      let database ← if path.isEmpty then pure 0 else databaseOf path
      let username ← decoded .username u.username
      let password ← decoded .password u.password
      checkProtocol u
      return ⟨.network host (u.port.getD usualPort), database, username, password⟩

def ofSocketUrl (u : Url) : Except Fault ServerAddress := do
  let isLocal := match u.host with
    | none => true
    | some host => host = .name "" ∨ host = .name "localhost"
  match u.path with
  | .segments (_ :: _) =>
      if !isLocal then throw .noPath
      let database ← match parameter? u "db" with
        | some digits => databaseOf digits
        | none => pure 0
      checkProtocol u
      return ⟨.socket (Bytes.lenient (Text.Percent.decode (Bytes.ofText u.pathText))), database,
        parameter? u "user", parameter? u "pass"⟩
  | _ => throw .noPath

def read (s : String) : Except Fault ServerAddress :=
  match Url.read s with
  | .error _ => .error .unreadable
  | .ok u =>
      if u.scheme = "redis" ∨ u.scheme = "rediss" then ofNetworkUrl u
      else if u.scheme = "unix" ∨ u.scheme = "redis+unix" then ofSocketUrl u
      else .error .unreadable

end ServerAddress

end Gatehouse
