import ControlClient.Credentials
import ControlClient.Session.Conversation
import ControlClient.Version

/-!
# One exchange

An operation is carried out by one request and its reply. The URL is made from the base, credentials
move into a header, and the answer must be an envelope with the payload of the operation; its status
does not matter.

No request is made for a URL of another scheme than `http` and `https`, nor for one that is too long or
whose host is spelled with a character that requests do not allow.
-/

namespace ControlClient

namespace Exchange

/-- The greatest length of the URL of a request. -/
def maxUrl : Nat := 65534

/-- Characters that the host of a URL may hold, but not that of a request. -/
def oddHostChars : List Char := ['"', '`', '\x7b', '\x7d']

/-- Why no request is made for a URL, if none is. -/
def refusal? (u : Url) : Option String :=
  if u.scheme ≠ "http" ∧ u.scheme ≠ "https" then some "URL scheme is not allowed"
  else if u.written.length > maxUrl ∨
      u.authority?.any (fun a => a.host.written.any oddHostChars.contains) then
    some "Parsed Url is not a valid Uri"
  else none

/-- What failed if a request cannot be made. -/
def buildingFailed (u : Url) : String := "builder error for url (" ++ u.text ++ ")"

/-- What failed if a request gets no answer. -/
def sendingFailed (u : Url) : String := "error sending request for url (" ++ u.text ++ ")"

/-- Why a request with a body gets no answer if the connection is closed. -/
def closedCauses : Content → List String
  | .bytes _ => ["client error (SendRequest)", "connection closed before message completed"]
  | .unreadable e => ["client error (SendRequest)", e.message]

/-- The request as the service receives it; the URL still holds credentials. -/
def sentRequest (request : Request) (u : Url) : SentRequest where
  method := request.method
  url := u.released.withoutFragment
  contentType? := request.contentType?
  userAgent
  authorization? := (Credentials.ofUrl? u).map (·.headerValue)
  body := request.body?.getD (.bytes [])

/-- Whether answers with a status have no body. -/
def isBodiless (status : Nat) : Bool := status = 204 || status = 304

/-- The failure that an envelope's fault is. -/
def failureOf (path : String) (status : Nat) : EnvelopeFault → Failure
  | .server message => .server message
  | .malformed m => .malformed path status m

/-- What follows from a reply. -/
def conclude {α : Type} [Payload α] (path : String) (u : Url) (body : Content) :
    Reply → Conversation α
  | .unreachable causes => .failed (.transport (sendingFailed u) causes)
  | .dropped => .failed (.transport (sendingFailed u) (closedCauses body))
  | .brokenOff what causes =>
      match body with
      | .unreadable _ => .failed (.transport (sendingFailed u) (closedCauses body))
      | .bytes _ => .failed (.transport what causes)
  | .answered status answer =>
      match body with
      | .unreadable _ => .failed (.transport (sendingFailed u) (closedCauses body))
      | .bytes _ => do
          let answer := if isBodiless status then [] else answer
          .note (.received status answer.length)
          .ofExcept ((Envelope.decode answer).mapError (failureOf path status))

end Exchange

/-- Carry out an operation and read the payload of the answer. -/
def Operation.exchange [DomainMapping] {α : Type} [Payload α] (base : Base) (o : Operation) :
    Conversation α := do
  let request := o.request
  let url ← .ofExcept ((base.urlFor request).mapError .invalidUrl)
  .note (.sending request.method url.text)
  let released := url.released
  match Exchange.refusal? released with
  | some cause =>
      .note (.roundTrip request.path)
      .failed (.transport (Exchange.buildingFailed released) [cause])
  | none => do
      let sent := Exchange.sentRequest request url
      let reply ← .ask sent
      .note (.roundTrip request.path)
      Exchange.conclude request.path released sent.body reply

end ControlClient
