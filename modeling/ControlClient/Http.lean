import ControlClient.Session.Conversation

/-!
# Messages on the wire

A request as the bytes of an HTTP message, and the status and the body of the message that answers it.
Requests are of version 1.0, so an answer ends where the connection does.
-/

namespace ControlClient.Http

/-- The end of a line. -/
def lineEnd : String := "\r\n"

/-- The host of a URL without brackets, and its port. -/
def endpoint? (u : Url) : Option (String × Nat) :=
  u.authority?.map fun a =>
    let host := match a.host with
      | .ipv6 groups => Url.ipv6Text groups
      | host => host.written
    (String.ofList host, (a.port?.or (Url.defaultPort? u.scheme)).getD 80)

/-- The part of a URL that a request names. -/
def target (u : Url) : String :=
  String.ofList (u.path.written ++ Url.optionalPart '?' u.query?)

/-- The header lines of a request. -/
def headers (r : SentRequest) (length : Nat) : List (String × String) :=
  (r.url.authority?.map fun a => ("host", String.ofList (a.host.written ++ a.portText))).toList
    ++ [("user-agent", r.userAgent), ("accept", "*/*")]
    ++ (r.contentType?.map (Prod.mk "content-type")).toList
    ++ (r.authorization?.map (Prod.mk "authorization")).toList
    ++ [("content-length", Text.digitText length), ("connection", "close")]

/-- A request with its body as a message. -/
def requestBytes (r : SentRequest) (body : List UInt8) : List UInt8 :=
  let head := r.method.name ++ " " ++ target r.url ++ " HTTP/1.0" ++ lineEnd
  let lines := (headers r body.length).map fun (name, value) => name ++ ": " ++ value ++ lineEnd
  Text.Utf8.bytes (head ++ String.join lines ++ lineEnd) ++ body

/-- What stands behind the first empty line. -/
def afterHeaders : List UInt8 → Option (List UInt8)
  | 13 :: 10 :: 13 :: 10 :: body => some body
  | _ :: rest => afterHeaders rest
  | [] => none

/-- The second word of some bytes, which are split at blanks. -/
def secondWord (bytes : List UInt8) : List UInt8 :=
  ((bytes.dropWhile (· ≠ 32)).dropWhile (· = 32)).takeWhile fun b => b ≠ 32 ∧ b ≠ 13

/-- The status and the body of an answer. -/
def readAnswer? (bytes : List UInt8) : Option (Nat × List UInt8) := do
  let body ← afterHeaders bytes
  let status ← Text.Utf8.decode? (secondWord bytes)
  if status.length = 3 ∧ status.all Char.isDigit then return (Text.ofDigits status, body)
  none

end ControlClient.Http
