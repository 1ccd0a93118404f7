import ControlClient.Text.Digits
import ControlClient.Url.Form
import ControlClient.Url.Host

/-!
# URLs

A URL in its parts, as they are written: everything that needs a percent code has one, special schemes
have a host and a path of at least one segment, and a port that is its scheme's own is left out.
-/

namespace ControlClient

/-- Whom a URL addresses. -/
structure Url.Authority where
  username : String
  password : String
  host : Url.Host
  port? : Option Nat
deriving DecidableEq, Repr

/-- What a URL addresses. -/
inductive Url.Path where
  /-- Segments, each of which a slash stands in front of. -/
  | segments (parts : List String)
  /-- A text that does not start with a slash. -/
  | bare (text : String)
deriving DecidableEq, Repr

/-- A URL. -/
structure Url where
  scheme : String
  authority? : Option Url.Authority
  path : Url.Path
  query? : Option String
  fragment? : Option String
deriving DecidableEq, Repr

namespace Url

/-- The port that a scheme uses unless another is given; only special schemes have one. -/
def defaultPort? (scheme : String) : Option Nat :=
  if scheme = "http" ∨ scheme = "ws" then some 80
  else if scheme = "https" ∨ scheme = "wss" then some 443
  else if scheme = "ftp" then some 21
  else none

/-- Whether a scheme is special: it always has a host, and a backslash counts as a slash. -/
def isSpecial (scheme : String) : Bool := scheme = "file" || (defaultPort? scheme).isSome

/-! ## Writing -/

/-- User name and password with what separates them from the host. -/
def Authority.credentials (a : Authority) : List Char :=
  if a.username = "" ∧ a.password = "" then []
  else
    a.username.toList ++ (if a.password = "" then [] else ':' :: a.password.toList) ++ ['@']

/-- The port with its colon. -/
def Authority.portText (a : Authority) : List Char :=
  match a.port? with
  | some port => ':' :: Text.digits port
  | none => []

/-- An authority as it stands in a URL. -/
def Authority.written (a : Authority) : List Char :=
  a.credentials ++ a.host.written ++ a.portText

/-- A path as it stands in a URL. -/
def Path.written : Path → List Char
  | .segments parts => parts.flatMap fun part => '/' :: part.toList
  | .bare text => text.toList

/-- Whether a path would be taken for an authority. -/
def Path.looksLikeAuthority : Path → Bool
  | .segments ("" :: _ :: _) => true
  | _ => false

/-- A part that may be absent, after the sign that introduces it. -/
def optionalPart (sign : Char) : Option String → List Char
  | some text => sign :: text.toList
  | none => []

/-- A URL as characters. -/
def written (u : Url) : List Char :=
  u.scheme.toList ++ ':' ::
    ((match u.authority? with
      | some a => '/' :: '/' :: a.written
      | none => if u.path.looksLikeAuthority then ['/', '.'] else []) ++
    u.path.written ++ optionalPart '?' u.query? ++ optionalPart '#' u.fragment?)

/-- A URL as text. -/
def text (u : Url) : String := String.ofList u.written

/-! ## Parts -/

/-- The URL without its user name and password. -/
def withoutCredentials (u : Url) : Url :=
  { u with authority? := u.authority?.map fun a => { a with username := "", password := "" } }

/-- The URL without its fragment. -/
def withoutFragment (u : Url) : Url := { u with fragment? := none }

/-- Put pairs at the end of the query. -/
def appendPairs (u : Url) (pairs : List (String × String)) : Url :=
  if pairs.isEmpty then u
  else { u with query? := some (String.ofList (Form.appendAll (u.query?.getD "").toList pairs)) }

/-- The pairs of the query. -/
def pairs (u : Url) : List (String × String) :=
  match u.query? with
  | some query => Form.decode query.toList
  | none => []

end Url

end ControlClient
