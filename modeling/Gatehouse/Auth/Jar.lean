import Gatehouse.Http.Cookie
import Gatehouse.Http.Message
import Gatehouse.Text.Percent

/-!
The cookies of a login: the session token, the state of a login under way, and
the path to return to.

A jar holds the cookies that came with a request and those that its response
will set. Of several cookies of one name the first counts, and an empty one
reads as none. To clear a cookie is to set it empty with a negative age.
-/

namespace Gatehouse.Auth

open Http

def sessionCookie : String := "flowra_session"

/-- The cookie of the state of a login under way. -/
def stateCookie : String := "flowra_state"

/-- The cookie of the path to return to after a login. -/
def redirectCookie : String := "flowra_redirect"

/-- How long a login may take, in seconds. -/
def shortMaxAge : Int := 300

/-- Whether a request came over a secure connection. A proxy in front says so
in a header, which counts only where the proxy is trusted. -/
def isSecure (headers : Headers) (target : Target) (trustProxy : Bool) : Bool :=
  match if trustProxy then headers.text? "x-forwarded-proto" else none with
  | some protos => Text.sameIgnoringCase (Text.trim (Text.before ',' protos)) "https"
  | none => target.scheme == some "https"

/-- A byte that a cookie value may hold as it is: visible ASCII without quotes,
commas, semicolons, backslashes and the sign of percent coding. -/
def isPlainOctet (b : UInt8) : Bool :=
  b == 0x21 || (0x23 ≤ b && b ≤ 0x24) || (0x26 ≤ b && b ≤ 0x2B) || (0x2D ≤ b && b ≤ 0x3A) ||
    (0x3C ≤ b && b ≤ 0x5B) || (0x5D ≤ b && b ≤ 0x7E)

/-- The cookies of a request and of its response. -/
structure Jar where
  incoming : List Cookie.Pair
  outgoing : List Cookie.Setting
  secure : Bool
  deriving DecidableEq, Repr

namespace Jar

def ofHeaders (headers : Headers) (secure : Bool) : Jar :=
  ⟨Cookie.pairs headers, [], secure⟩

/-- The value of a cookie, if there is one and it is not empty. -/
def read? (jar : Jar) (name : String) : Option String :=
  (jar.incoming.lookup name).filter fun v => !v.isEmpty

def session? (jar : Jar) : Option String :=
  jar.read? sessionCookie

/-- The state of the login under way. -/
def state? (jar : Jar) : Option String :=
  jar.read? stateCookie

/-- The path to return to. -/
def redirect? (jar : Jar) : Option String :=
  (jar.read? redirectCookie).bind Text.Percent.decodeText?

def set (jar : Jar) (name value : String) (maxAge : Int) : Jar :=
  { jar with outgoing := jar.outgoing ++ [⟨name, value, true, jar.secure, maxAge⟩] }

def clear (jar : Jar) (name : String) : Jar :=
  { jar with outgoing := jar.outgoing ++ [⟨name, "", false, jar.secure, -1⟩] }

def setSession (jar : Jar) (token : String) (maxAge : Int) : Jar :=
  jar.set sessionCookie token maxAge

def setState (jar : Jar) (state : String) : Jar :=
  jar.set stateCookie state shortMaxAge

/-- How a path is kept in a cookie: as it is where every byte is plain, else
percent-encoded. -/
def redirectValue (path : String) : String :=
  if (Bytes.ofText path).all isPlainOctet then path
  else Text.Percent.encode Text.Percent.isUnreserved path

def setRedirect (jar : Jar) (path : String) : Jar :=
  jar.set redirectCookie (redirectValue path) shortMaxAge

def clearSession (jar : Jar) : Jar :=
  jar.clear sessionCookie

def clearState (jar : Jar) : Jar :=
  jar.clear stateCookie

def clearRedirect (jar : Jar) : Jar :=
  jar.clear redirectCookie

/-- Whether the response will set a cookie. -/
def hasChanges (jar : Jar) : Bool :=
  !jar.outgoing.isEmpty

/-- Set the cookies of the jar in a response, those that no header can hold
left out. -/
def apply (jar : Jar) (r : Response) : Response :=
  r.mapHeaders fun h =>
    (jar.outgoing.filterMap fun c => Value.ofText? c.write).foldl
      (fun h v => h.append "set-cookie" v) h

end Jar

end Gatehouse.Auth
