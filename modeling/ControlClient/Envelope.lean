import ControlClient.Catalog
import ControlClient.Json.Reader

/-!
# Answers of the service

Every answer is an envelope: an object that holds a payload and may hold an `Error`. A non-empty
error message wins over anything else in the body, and the payload is not looked at then. A blank
body, or `null`, is an envelope without payload.

Four payloads occur. Each has a value that stands for its absence, and is read from the whole
envelope, whose other members are passed over.
-/

namespace ControlClient

open Json

/-! ## Payloads -/

/-- A kind of payload: what its absence means, and how it is read. -/
class Payload (α : Type) where
  /-- What an envelope without payload means. -/
  absent : α
  /-- The payload of an envelope. -/
  ofValue : Value → Except ShapeFault α

/-- The payload of calls that return nothing. -/
structure Acknowledgement where
deriving DecidableEq, Repr

/-- The payload that names a recording that was started. -/
structure RecordingCreated where
  id : String
deriving DecidableEq, Repr

/-- The payload that lists tasks. -/
structure TaskList where
  tasks : List Task
deriving DecidableEq, Repr

/-- The payload that lists recordings. -/
structure RecordingList where
  recordings : List Recording
deriving DecidableEq

instance : Payload Acknowledgement where
  absent := ⟨⟩
  ofValue := Value.asRecord "Empty" (fun _ => .ok ⟨⟩) fun items => do
    atMost 0 items
    return ⟨⟩

/-- A payload with one field that may be absent. -/
def soleField {α : Type} (name field : String) (readField : Value → Except ShapeFault α) :
    Value → Except ShapeFault (Option α) :=
  Value.asRecord name (fun members => readOptional readField (get? field members)) fun items => do
    let a? ← readOptional readField items[0]?
    atMost 1 items
    return a?

instance : Payload RecordingCreated where
  absent := ⟨""⟩
  ofValue v := (soleField "RecordingCreated" "RecordingID" Value.asString v).map (⟨·.getD ""⟩)

instance : Payload TaskList where
  absent := ⟨[]⟩
  ofValue v := (soleField "TaskList" "Tasks" (Value.asList Task.ofValue) v).map (⟨·.getD []⟩)

instance : Payload RecordingList where
  absent := ⟨[]⟩
  ofValue v :=
    (soleField "RecordingList" "Recordings" (Value.asList Recording.ofValue) v).map (⟨·.getD []⟩)

/-! ## Envelopes -/

/-- Why a body is not an envelope with the payload that is wanted. -/
inductive Malformed where
  /-- The body is not JSON. -/
  | notJson (e : SyntaxError)
  /-- The document does not have the payload's shape. -/
  | badShape (fault : ShapeFault)
deriving Repr

/-- What is wrong with a body, in words. -/
def Malformed.message : Malformed → String
  | notJson e => e.message
  | badShape fault => fault.message

/-- Why an answer yields no payload. -/
inductive EnvelopeFault where
  /-- The service reports an error. -/
  | server (message : String)
  /-- The body is not an envelope with this payload. -/
  | malformed (m : Malformed)
deriving Repr

namespace Envelope

/-- Whether a byte is blank in a body: a space, a tab, a line feed, a form feed or a return. -/
def isBlankByte (byte : UInt8) : Bool :=
  byte = 32 || byte = 9 || byte = 10 || byte = 12 || byte = 13

/-- The error that a document reports, if it reports one. -/
def reportedError? (v : Value) : Option String :=
  match v.member? "Error" with
  | some (.string s) => if s = "" then none else some s
  | _ => none

/-- The payload of a document. -/
def payload {α : Type} [Payload α] (v : Value) : Except EnvelopeFault α :=
  match v with
  | .null => .ok Payload.absent
  | v =>
      match reportedError? v with
      | some message => .error (.server message)
      | none =>
          match Payload.ofValue v with
          | .ok a => .ok a
          | .error fault => .error (.malformed (.badShape fault))

/-- The payload of a body. -/
def decode {α : Type} [Payload α] (body : List UInt8) : Except EnvelopeFault α :=
  if body.all isBlankByte then .ok Payload.absent
  else
    match Json.read body with
    | .ok v => payload v
    | .error e => .error (.malformed (.notJson e))

end Envelope

end ControlClient
