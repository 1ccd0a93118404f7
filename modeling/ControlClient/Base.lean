import ControlClient.Request
import ControlClient.Url.Read

/-!
# The address of the service

A service is found at a base URL. The URL of a request is the text of the base without the slashes at
its end, followed by the path of the endpoint, read again, with the request's pairs at the end of its
query. A base that has a query or a fragment therefore takes the endpoint's path into it.
-/

namespace ControlClient

/-- The address under which the service is found unless another is given. -/
def defaultAddress : String := "http://localhost:9092"

/-- A text that should have been the URL of the service. -/
structure InvalidUrl where
  text : String
  fault : UrlFault
deriving DecidableEq, Repr

/-- What is wrong with an address. -/
def InvalidUrl.message (e : InvalidUrl) : String :=
  "invalid service URL '" ++ e.text ++ "': " ++ e.fault.message

/-- Where the service is found. -/
structure Base where
  url : Url
deriving DecidableEq, Repr

namespace Base

/-- The URL of a text, whose fault is reported with it. -/
def readUrl [DomainMapping] (text : String) : Except InvalidUrl Url :=
  match Url.read text with
  | .ok url => .ok url
  | .error fault => .error ⟨text, fault⟩

/-- The base that a text names. -/
def read [DomainMapping] (text : String) : Except InvalidUrl Base := (readUrl text).map (⟨·⟩)

/-- Drop the slashes at the end. -/
def dropSlashes (cs : List Char) : List Char := (cs.reverse.dropWhile (· == '/')).reverse

/-- The text of the base with the path of an endpoint behind it. -/
def join (base : Base) (path : String) : String :=
  String.ofList (dropSlashes base.url.written ++ path.toList)

/-- The URL of a request. -/
def urlFor [DomainMapping] (base : Base) (request : Request) : Except InvalidUrl Url :=
  (readUrl (base.join request.path)).map (·.appendPairs request.pairs)

end Base

end ControlClient
