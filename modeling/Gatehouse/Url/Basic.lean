import Gatehouse.Ip
import Gatehouse.Text.Form

/-!
Addresses on the web, and their text.

An address has a scheme, and often an authority: a host with an optional port
and credentials. A path is a list of segments; only an address without an
authority may have one that is a flat text. Every part is kept as it is written
in the address, percent-encoded where it has to be.
-/

namespace Gatehouse

/-- A host: a name, or an address of the Internet protocol. -/
inductive Host where
  | name (text : String)
  | v4 (address : Ipv4)
  | v6 (address : Ipv6)
  deriving DecidableEq, Repr

def Host.write : Host → String
  | name text => text
  | v4 a => a.write
  | v6 a => "[" ++ a.write ++ "]"

/-- The path of an address. -/
inductive Url.Path where
  | flat (text : String)
  | segments (items : List String)
  deriving DecidableEq, Repr

/-- An address. -/
structure Url where
  scheme : String
  username : String := ""
  password : String := ""
  /-- The host of the authority, if there is an authority. -/
  host : Option Host := none
  /-- The port, where it is not the usual one of the scheme. -/
  port : Option Nat := none
  path : Url.Path
  query : Option String := none
  fragment : Option String := none
  deriving DecidableEq, Repr

namespace Url

/-- The schemes with a known form, each with its usual port. -/
def special : List (String × Option Nat) :=
  [("http", some 80), ("https", some 443), ("ws", some 80), ("wss", some 443), ("ftp", some 21),
    ("file", none)]

def isSpecial (scheme : String) : Bool :=
  (special.lookup scheme).isSome

def usualPort? (scheme : String) : Option Nat :=
  (special.lookup scheme).join

def writeCredentials (u : Url) : String :=
  if u.username.isEmpty && u.password.isEmpty then ""
  else u.username ++ (if u.password.isEmpty then "" else ":" ++ u.password) ++ "@"

def writeAuthority (u : Url) : String :=
  match u.host with
  | none => ""
  | some host =>
      "//" ++ u.writeCredentials ++ host.write ++
        (match u.port with | some p => ":" ++ Text.Decimal.ofNat p | none => "")

def pathText (u : Url) : String :=
  match u.path with
  | .flat text => text
  | .segments items => String.join (items.map fun s => "/" ++ s)

/-- Write the path. Without an authority, one that begins with two slashes is
kept from being read as one. -/
def writePath (u : Url) : String :=
  match u.host, u.path with
  | none, .segments ("" :: _ :: _) => "/." ++ u.pathText
  | _, _ => u.pathText

def write (u : Url) : String :=
  u.scheme ++ ":" ++ u.writeAuthority ++ u.writePath ++
    (match u.query with | some q => "?" ++ q | none => "") ++
    (match u.fragment with | some f => "#" ++ f | none => "")

/-- Add pairs behind the query, which stay apart from what it holds already. -/
def addQuery (u : Url) (pairs : List Text.Form.Pair) : Url :=
  let added := Text.Form.encode pairs
  match u.query with
  | none | some "" => { u with query := some added }
  | some q => { u with query := some (q ++ "&" ++ added) }

def queryPairs (u : Url) : List Text.Form.Pair :=
  Text.Form.decode (u.query.getD "")

end Url

end Gatehouse
