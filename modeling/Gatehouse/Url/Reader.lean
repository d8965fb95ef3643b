import Gatehouse.Url.Basic
import Gatehouse.Url.Domain

/-!
Reading addresses.

Control characters and spaces around an address and line breaks within it are
dropped. A scheme comes first; what follows depends on it: a special scheme
always has an authority, and a backslash counts as a slash. Fragment and query
are cut off, the authority is read from the front, and the rest is the path.
-/

namespace Gatehouse.Url

open Text

/-- Why a text is no address. -/
inductive Fault where
  | noScheme
  | emptyHost
  | invalidDomain
  | invalidPort
  | invalidIpv4
  | invalidIpv6
  | invalidCharacter
  deriving DecidableEq, Repr

def Fault.message : Fault → String
  | noScheme => "relative URL without a base"
  | emptyHost => "empty host"
  | invalidDomain => "invalid international domain name"
  | invalidPort => "invalid port number"
  | invalidIpv4 => "invalid IPv4 address"
  | invalidIpv6 => "invalid IPv6 address"
  | invalidCharacter => "invalid domain character"

/-! ### What is percent-encoded -/

/-- A visible ASCII byte outside a set of reserved characters. -/
def keeps (reserved : String) (b : UInt8) : Bool :=
  0x20 ≤ b && b < 0x7F && !reserved.toList.contains (Char.ofUInt8 b)

def fragmentReserved : String := " \"<>\x60"

/-- The characters encoded in a segment of a path. -/
def pathReserved : String := fragmentReserved ++ "#?\x7b\x7d"

def credentialReserved : String := pathReserved ++ "/:;=@[\\]^|"

def queryReserved (special : Bool) : String :=
  if special then " \"#<>\x27" else " \"#<>"

/-- Characters with all that is not kept encoded. -/
def encode (reserved : String) (cs : List Char) : String :=
  Percent.encode (keeps reserved) (String.ofList cs)

/-! ### Hosts -/

/-- A number between dots: hexadecimal behind `0x`, octal behind `0`. -/
def ipv4Number? (cs : List Char) : Option Nat :=
  let ofDigits (base : Nat) (ds : List Char) : Option Nat := do
    let values ← ds.mapM fun c =>
      (if c.toNat < 0x80 then Bytes.hexValue? c.toUInt8 else none).filter fun d => d.toNat < base
    some (values.foldl (fun n d => n * base + d.toNat) 0)
  match cs with
  | [] => none
  | '0' :: 'x' :: ds | '0' :: 'X' :: ds => ofDigits 16 ds
  | '0' :: d :: ds => ofDigits 8 (d :: ds)
  | ds => ofDigits 10 ds

/-- The last label of a name is a number, so the name must be an address. -/
def endsInNumber (labels : List (List Char)) : Bool :=
  let last? := match labels.reverse with
    | [] :: last :: _ => some last
    | [] :: [] => none
    | last :: _ => some last
    | [] => none
  match last? with
  | some last => (last ≠ [] && last.all Char.isDigit) || (ipv4Number? last).isSome
  | none => false

/-- The address that labels in numbers give. The last number may stand for
several bytes. -/
def ipv4? (labels : List (List Char)) : Option Ipv4 := do
  let labels := if labels.getLast? = some [] then labels.dropLast else labels
  let numbers ← labels.mapM ipv4Number?
  let front := numbers.dropLast
  let last ← numbers.getLast?
  if front.length ≤ 3 ∧ front.all (· ≤ 255) ∧ last < 1 <<< (8 * (4 - front.length)) then
    some ⟨front.zipIdx.foldl (fun value (n, i) => value + n <<< (8 * (3 - i))) last⟩
  else none

def bracketed (cs : List Char) : Except Fault Host :=
  if cs.getLast? = some ']' then
    match Ipv6.readChars? (cs.drop 1).dropLast with
    | some a => .ok (.v6 a)
    | none => .error .invalidIpv6
  else .error .invalidIpv6

/-- The host of a special scheme. -/
def domain (cs : List Char) : Except Fault Host :=
  if cs.head? = some '[' then bracketed cs
  else
    match (Percent.decodeText? (String.ofList cs)).bind fun s => Domain.toAscii? s.toList with
    | none => .error .invalidDomain
    | some [] => .error .emptyHost
    | some name =>
        if endsInNumber (pieces '.' name) then
          match ipv4? (pieces '.' name) with
          | some a => .ok (.v4 a)
          | none => .error .invalidIpv4
        else .ok (.name (String.ofList name))

def isForbiddenInHost (c : Char) : Bool :=
  c.toNat == 0 || " #/:<>?@[\\]^|".toList.contains c

/-- The host of any other scheme. -/
def plainHost (cs : List Char) : Except Fault Host :=
  if cs.head? = some '[' then bracketed cs
  else if cs.any isForbiddenInHost then .error .invalidCharacter
  else .ok (.name (Percent.encode (fun b => 0x20 ≤ b && b < 0x7F) (String.ofList cs)))

/-! ### Authorities -/

def endsAuthority (special : Bool) (c : Char) : Bool :=
  c = '/' || (special && c = '\\')

/-- The characters of a host and what follows them; within brackets a colon does
not end it. -/
def hostChars (special inBrackets : Bool) : List Char → List Char × List Char
  | [] => ([], [])
  | c :: rest =>
      if endsAuthority special c || (c = ':' && !inBrackets) then ([], c :: rest)
      else
        let (host, rest) := hostChars special (c = '[' || (inBrackets && c ≠ ']')) rest
        (c :: host, rest)

/-- A port behind its colon, and what follows it. -/
def portOf (scheme : String) (cs : List Char) : Except Fault (Option Nat × List Char) :=
  match cs with
  | ':' :: rest =>
      let digits := rest.takeWhile Char.isDigit
      let rest := rest.dropWhile Char.isDigit
      match rest.head?.all (fun c => c = '/' || c = '\\'),
          Decimal.readDigits Decimal.max16 .tooLarge 0 digits with
      | true, .ok n => .ok (if digits = [] ∨ usualPort? scheme = some n then none else some n, rest)
      | _, _ => .error .invalidPort
  | rest => .ok (none, rest)

/-- Credentials before the last `@` of an authority, and what follows it. -/
def credentials? (special : Bool) (cs : List Char) : Option (List Char × List Char) :=
  let inside := cs.takeWhile fun c => !endsAuthority special c
  (cutChars '@' inside.reverse).map fun parts =>
    (parts.2.reverse, parts.1.reverse ++ cs.dropWhile fun c => !endsAuthority special c)

/-- A user name and a password. -/
def splitCredentials (cs : List Char) : String × String :=
  match cutChars ':' cs with
  | some (user, password) => (encode credentialReserved user, encode credentialReserved password)
  | none => (encode credentialReserved cs, "")

/-- Read an authority from the front of an address without query and fragment,
of which `more` tells whether there are any; the rest is the path. -/
def authority (scheme : String) (more : Bool) (cs : List Char) :
    Except Fault (Url × List Char) := do
  let isSpecial := isSpecial scheme
  let (login, afterLogin) := (credentials? isSpecial cs).getD ([], cs)
  if login = [] ∧ afterLogin.length < cs.length then
    if afterLogin.head?.elim more (endsAuthority isSpecial) then throw .emptyHost
  let (username, password) := splitCredentials login
  let (host, afterHost) := hostChars isSpecial false afterLogin
  if host = [] ∧ (isSpecial ∨ afterHost.head? = some ':' ∨ username ≠ "" ∨ password ≠ "") then
    throw .emptyHost
  let host ← if isSpecial then domain host else plainHost host
  let (port, rest) ← portOf scheme afterHost
  return (⟨scheme, username, password, some host, port, .segments [], none, none⟩, rest)

/-! ### Paths -/

/-- A segment that stays where it is. -/
def isHere (s : String) : Bool :=
  [".", "%2e"].contains (lowerAscii s)

/-- A segment that goes one up. -/
def isUp (s : String) : Bool :=
  ["..", ".%2e", "%2e.", "%2e%2e"].contains (lowerAscii s)

/-- Follow the segments of a path: the last one leaves an empty segment when it
stays or goes up. -/
def follow (done : List String) : List String → List String
  | [] => done
  | s :: rest =>
      let next := if isUp s then done.dropLast else if isHere s then done else done ++ [s]
      if rest = [] ∧ (isUp s ∨ isHere s) then next ++ [""] else follow next rest

def slashPieces (special : Bool) (cs : List Char) : List (List Char) :=
  pieces '/' (if special then cs.map fun c => if c = '\\' then '/' else c else cs)

/-- The segments of a path that may begin with a slash. -/
def segments (special : Bool) (cs : List Char) : List String :=
  let inner := if cs.head?.any (endsAuthority special) then cs.drop 1 else cs
  follow [] ((slashPieces special inner).map (encode pathReserved))

/-- The letter of a drive, with a colon or a bar. -/
def isDrive (s : String) : Bool :=
  match s.toList with
  | [letter, mark] => letter.isAlpha && (mark = ':' || mark = '|')
  | _ => false

/-- The segments of a path to a file: none is empty at the front, and the letter
of a drive has a colon. -/
def fileSegments (cs : List Char) : List String :=
  match (segments true cs).dropWhile (· = "") with
  | [] => [""]
  | first :: rest =>
      (if isDrive first then String.ofList (first.toList.take 1 ++ [':']) else first) :: rest

/-! ### Addresses -/

/-- The scheme of an address, in lower case, and what follows its colon. -/
def scheme? (cs : List Char) : Option (String × List Char) :=
  match cs with
  | c :: _ =>
      let inScheme (c : Char) : Bool := c.isAlphanum || c = '+' || c = '-' || c = '.'
      match c.isAlpha, cs.dropWhile inScheme with
      | true, ':' :: rest => some (lowerAscii (String.ofList (cs.takeWhile inScheme)), rest)
      | _, _ => none
  | [] => none

def readFile (cs : List Char) : Except Fault Url := do
  let isSlash := endsAuthority true
  let here : Url := { scheme := "file", host := some (.name ""), path := .segments [] }
  match cs with
  | a :: b :: rest =>
      if isSlash a ∧ isSlash b then
        let text := rest.takeWhile fun c => !isSlash c
        if text = [] ∨ isDrive (String.ofList text) then
          return { here with path := .segments (fileSegments rest) }
        let host ← domain text
        let host := if host = .name "localhost" then .name "" else host
        return { here with
          host := some host, path := .segments (fileSegments (rest.drop text.length)) }
      else return { here with path := .segments (fileSegments cs) }
  | _ => return { here with path := .segments (fileSegments cs) }

/-- Read what stands between the scheme and the query. -/
def readMiddle (scheme : String) (more : Bool) (cs : List Char) : Except Fault Url := do
  if scheme = "file" then readFile cs
  else if isSpecial scheme then
    let (u, rest) ← authority scheme more (cs.dropWhile (endsAuthority true))
    return { u with path := .segments (segments true rest) }
  else
    match cs with
    | '/' :: '/' :: cs =>
        let (u, rest) ← authority scheme more cs
        return if rest = [] then u else { u with path := .segments (segments false rest) }
    | '/' :: _ => return { scheme, path := .segments (segments false cs) }
    | _ => return { scheme, path := .flat (encode "" cs) }

/-- The parts before and after the first occurrence of a separator, if there is
one. -/
def cutOff (sep : Char) (cs : List Char) : List Char × Option (List Char) :=
  match cutChars sep cs with
  | some (front, back) => (front, some back)
  | none => (cs, none)

/-- Control characters and spaces. -/
def isPadding (c : Char) : Bool :=
  c.toNat ≤ 0x20

/-- The characters of an address that count. -/
def trimmed (s : String) : List Char :=
  (((s.toList.dropWhile isPadding).reverse.dropWhile isPadding).reverse).filter fun c =>
    !(c = '\t' || c = '\n' || c = '\r')

def read (s : String) : Except Fault Url := do
  match scheme? (trimmed s) with
  | none => throw .noScheme
  | some (scheme, cs) =>
      let (cs, fragment) := cutOff '#' cs
      let (cs, query) := cutOff '?' cs
      let u ← readMiddle scheme (query.isSome || fragment.isSome) cs
      return { u with
        query := query.map (encode (queryReserved (isSpecial scheme)))
        fragment := fragment.map (encode fragmentReserved) }

end Gatehouse.Url
