import ControlClient.Span.Canonical
import ControlClient.SystemError
import ControlClient.TaskType
import ControlClient.Text.Digits

/-!
# Requests to the service

Each thing that the service can be asked to do is an `Operation`, and each operation is one request: a
method, the path of an endpoint, and pairs of a key and a value in the order in which they are sent.
Values are sent as they are; encoding them is a matter of the URL.
-/

namespace ControlClient

/-- Methods of requests. -/
inductive Method where
  | get
  | post
  | delete
deriving DecidableEq, Repr

/-- The name of a method. -/
def Method.name : Method → String
  | get => "GET"
  | post => "POST"
  | delete => "DELETE"

/-- What is recorded. -/
inductive RecordSource where
  /-- The live stream, for a span. -/
  | stream (duration : Span)
  /-- The queries of a task, run so many times from a start time on. -/
  | batch (name start : String) (count : Int64) (address : String)
  /-- The result of a query, kept as data of a type. -/
  | query (text : String) (type : TaskType) (address : String)
deriving DecidableEq

/-- What an open file gives. -/
inductive Content where
  | bytes (data : List UInt8)
  /-- It opens but cannot be read, as a directory does. -/
  | unreadable (e : SystemError)
deriving DecidableEq, Repr

/-- What the service can be asked to do. -/
inductive Operation where
  | record (source : RecordSource)
  /-- Create or change a task, whose script is the body. -/
  | define (name : String) (type : TaskType) (script : Content)
  /-- Feed a recording to a task, as fast as possible or in real time. -/
  | replay (name id : String) (fast : Bool)
  | enable (name : String)
  | disable (name : String)
  | deleteTask (name : String)
  | deleteRecording (id : String)
  /-- List tasks; no names are all of them. -/
  | listTasks (names : List String)
  /-- List recordings; no identifiers are all of them. -/
  | listRecordings (ids : List String)
  | setLevel (level : String)
deriving DecidableEq

/-- One request. -/
structure Request where
  method : Method
  /-- The path of the endpoint. -/
  path : String
  pairs : List (String × String)
  contentType? : Option String
  body? : Option Content
deriving DecidableEq, Repr

/-- The content type of requests whose body is a script or nothing. -/
def octetStream : String := "application/octetstream"

/-- The content type of requests that set the log level. -/
def plainText : String := "text/plain"

/-- Names in one value, separated by commas. -/
def joinNames (names : List String) : String := ",".intercalate names

/-- The pairs that say what is recorded. -/
def RecordSource.pairs : RecordSource → List (String × String)
  | stream duration => [("type", "stream"), ("duration", duration.text)]
  | batch name start count address =>
      [("type", "batch"), ("name", name), ("start", start), ("num", Text.intText count.toInt),
        ("addr", address)]
  | query text type address =>
      [("type", "query"), ("query", text), ("qtype", type.name), ("addr", address)]

namespace Operation

private def posting (path : String) (pairs : List (String × String)) : Request :=
  ⟨.post, path, pairs, some octetStream, none⟩

/-- The request of an operation. -/
def request : Operation → Request
  | record source => posting "/record" source.pairs
  | define name type script =>
      { posting "/task" [("name", name), ("type", type.name)] with body? := some script }
  | replay name id fast =>
      posting "/replay" ([("name", name), ("id", id)] ++ if fast then [("clock", "fast")] else [])
  | enable name => posting "/enable" [("name", name)]
  | disable name => posting "/disable" [("name", name)]
  | deleteTask name => ⟨.delete, "/task", [("name", name)], none, none⟩
  | deleteRecording id => ⟨.delete, "/recording", [("rid", id)], none, none⟩
  | listTasks names => ⟨.get, "/tasks", [("tasks", joinNames names)], none, none⟩
  | listRecordings ids => ⟨.get, "/recordings", [("rids", joinNames ids)], none, none⟩
  | setLevel level => ⟨.post, "/loglevel", [("level", level)], some plainText, none⟩

end Operation

end ControlClient
