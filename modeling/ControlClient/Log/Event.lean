import ControlClient.CommandLine.Command
import ControlClient.Request
import ControlClient.Text.Quoted

/-!
# Log events

What the client writes to its log while a command is carried out. An event has a level, a target that
says which part of the client it comes from, and a line.
-/

namespace ControlClient.Log

/-- Levels of events, from the gravest to the finest. -/
inductive Level where
  | error
  | warn
  | info
  | debug
  | trace
deriving DecidableEq, Repr

namespace Level

/-- How fine a level is. -/
def rank : Level → Nat
  | error => 1
  | warn => 2
  | info => 3
  | debug => 4
  | trace => 5

/-- The name of a level. -/
def name : Level → String
  | error => "error"
  | warn => "warn"
  | info => "info"
  | debug => "debug"
  | trace => "trace"

/-- The name of a level in front of a line. -/
def heading : Level → String
  | error => "ERROR"
  | warn => "WARN"
  | info => "INFO"
  | debug => "DEBUG"
  | trace => "TRACE"

/-- All levels. -/
def all : List Level := [error, warn, info, debug, trace]

end Level

/-- Something that happens while a command is carried out. -/
inductive Event where
  /-- Some tasks or recordings are about to be deleted. -/
  | deleting (kind : DeleteKind) (ids : List String)
  /-- A request is about to be sent. -/
  | sending (method : Method) (url : String)
  /-- A request to an endpoint was answered, or failed. -/
  | roundTrip (path : String)
  /-- An answer came, with a body of so many bytes. -/
  | received (status bytes : Nat)
  /-- The command failed. -/
  | failed (code : String)
deriving DecidableEq, Repr

namespace Event

/-- The level of an event. -/
def level : Event → Level
  | received _ _ => .trace
  | _ => .debug

/-- The part of the client that an event comes from. -/
def target : Event → String
  | deleting _ _ => "kapacitor::commands::delete"
  | sending _ _ | roundTrip _ | received _ _ => "kapacitor::client"
  | failed _ => "kapacitor"

/-- A kind of what is deleted, as the log names it. -/
def kindName : DeleteKind → String
  | .task => "Task"
  | .recording => "Recording"

/-- A text in quotes. -/
def quoted (s : String) : String := Text.Quoted.text s

/-- What happened; a round trip took this time. -/
def text (elapsed : String) : Event → String
  | deleting kind ids =>
      "deleting kind=" ++ kindName kind ++ " ids=[" ++ ", ".intercalate (ids.map quoted) ++ "]"
  | sending method url => "sending request method=" ++ method.name ++ " url=" ++ url
  | roundTrip path => "round trip took " ++ elapsed ++ " path=" ++ quoted path
  | received status bytes =>
      "received response status=" ++ Text.digitText status ++ " bytes=" ++ Text.digitText bytes
  | failed code => "command failed code=" ++ quoted code

/-- The line of an event. -/
def line (elapsed : String) (e : Event) : String := e.level.heading ++ " " ++ e.text elapsed

end Event

end ControlClient.Log
