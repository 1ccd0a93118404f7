import ControlClient.Span.Basic
import ControlClient.TaskType

/-!
# Commands

What the client can be told to do, with the options of each command, and the settings that all
commands share. The values of an option with fixed choices form a type of their own, which knows the
name of each choice.
-/

namespace ControlClient

/-- How listings and errors are shown. -/
inductive OutputFormat where
  /-- Columns with titles. -/
  | table
  /-- Indented JSON. -/
  | json
deriving DecidableEq, Repr, Inhabited

/-- What is recorded. -/
inductive RecordMode where
  /-- A snapshot of the live stream. -/
  | stream
  /-- The queries of a task. -/
  | batch
  /-- The result of a query. -/
  | query
deriving DecidableEq, Repr

/-- What is deleted. -/
inductive DeleteKind where
  | task
  | recording
deriving DecidableEq, Repr

/-- What is listed. -/
inductive ListKind where
  | tasks
  | recordings
deriving DecidableEq, Repr

/-! ## Names of choices -/

namespace TaskType

/-- The word that chooses a type. -/
def choice : TaskType → String
  | stream => "streamer"
  | batch => "batcher"

/-- The word that chooses a type as well but is not listed. -/
def hiddenChoice : TaskType → String
  | stream => "stream"
  | batch => "batch"

/-- The type that a word chooses. -/
def ofChoice? (s : String) : Option TaskType := all.find? fun t => t.choice = s || t.hiddenChoice = s

theorem ofChoice?_eq_some_iff {s : String} {t : TaskType} :
    ofChoice? s = some t ↔ s = t.choice ∨ s = t.hiddenChoice := by
  constructor
  · intro h
    have hFound := List.find?_some h
    simp only [Bool.or_eq_true, decide_eq_true_eq] at hFound
    exact hFound.imp Eq.symm Eq.symm
  · rintro (rfl | rfl) <;> cases t <;> decide

/-- **The words that choose a type are its names.** -/
theorem ofChoice?_eq_ofName? (s : String) : ofChoice? s = ofName? s := by
  apply Option.ext
  intro t
  rw [ofChoice?_eq_some_iff, ofName?_eq_some_iff]
  cases t <;> rfl

end TaskType

namespace OutputFormat

/-- All formats, in the order in which they are listed. -/
def all : List OutputFormat := [table, json]

/-- The name of a format. -/
def name : OutputFormat → String
  | table => "table"
  | json => "json"

/-- The format of a name. -/
def ofName? (s : String) : Option OutputFormat := all.find? (·.name = s)

end OutputFormat

namespace RecordMode

/-- All modes, in the order in which they are listed. -/
def all : List RecordMode := [stream, batch, query]

/-- The name of a mode. -/
def name : RecordMode → String
  | stream => "stream"
  | batch => "batch"
  | query => "query"

/-- The mode of a name. -/
def ofName? (s : String) : Option RecordMode := all.find? (·.name = s)

end RecordMode

namespace DeleteKind

/-- All kinds, in the order in which they are listed. -/
def all : List DeleteKind := [task, recording]

/-- The name of a kind. -/
def name : DeleteKind → String
  | task => "task"
  | recording => "recording"

/-- The kind of a name. -/
def ofName? (s : String) : Option DeleteKind := all.find? (·.name = s)

end DeleteKind

namespace ListKind

/-- All kinds, in the order in which they are listed. -/
def all : List ListKind := [tasks, recordings]

/-- The name of a kind. -/
def name : ListKind → String
  | tasks => "tasks"
  | recordings => "recordings"

/-- The kind of a name. -/
def ofName? (s : String) : Option ListKind := all.find? (·.name = s)

end ListKind

/-! ## Commands -/

/-- The commands by name. -/
inductive CommandName where
  | record
  | define
  | replay
  | enable
  | disable
  | delete
  | list
  | level
  | version
  | help
deriving DecidableEq, Repr

namespace CommandName

/-- All commands, in the order in which they are listed. -/
def all : List CommandName :=
  [record, define, replay, enable, disable, delete, list, level, version, help]

/-- The word of a command. -/
def name : CommandName → String
  | record => "record"
  | define => "define"
  | replay => "replay"
  | enable => "enable"
  | disable => "disable"
  | delete => "delete"
  | list => "list"
  | level => "level"
  | version => "version"
  | help => "help"

/-- The command of a word. -/
def ofName? (s : String) : Option CommandName := all.find? (·.name = s)

theorem ofName?_name (c : CommandName) : ofName? c.name = some c := by
  cases c <;> decide

theorem name_of_ofName? {s : String} {c : CommandName} (h : ofName? s = some c) : c.name = s := by
  simpa using List.find?_some h

end CommandName

/-- The options of `record`. -/
structure RecordOptions where
  mode : RecordMode
  duration : Span
  name : String
  start : String
  count : Int64
  address : String
  query : String
  type? : Option TaskType
deriving DecidableEq

/-- The options of `define`. -/
structure DefineOptions where
  name : String
  /-- The path of the script. -/
  script? : Option (List UInt8)
  type? : Option TaskType
deriving DecidableEq, Repr

/-- The options of `replay`. -/
structure ReplayOptions where
  name : String
  id : String
  fast : Bool
deriving DecidableEq, Repr

/-- A command with its options. -/
inductive Command where
  | record (options : RecordOptions)
  | define (options : DefineOptions)
  | replay (options : ReplayOptions)
  | enable (names : List String)
  | disable (names : List String)
  | delete (kind? : Option DeleteKind) (ids : List String)
  | list (kind? : Option ListKind) (ids : List String)
  | level (level? : Option String)
  | version
  | help (topic? : Option String)
deriving DecidableEq

/-- The name of a command. -/
def Command.name : Command → CommandName
  | record _ => .record
  | define _ => .define
  | replay _ => .replay
  | enable _ => .enable
  | disable _ => .disable
  | delete _ _ => .delete
  | list _ _ => .list
  | level _ => .level
  | version => .version
  | help _ => .help

/-- The settings that all commands share. -/
structure Settings where
  /-- The address of the service. -/
  url : String
  /-- The format that was asked for by name. -/
  output : OutputFormat
  /-- Whether JSON was asked for by its own option. -/
  json : Bool
  /-- How often more detail in the log was asked for. -/
  debug : Nat
deriving DecidableEq, Repr

/-- The format that counts: the option for JSON wins. -/
def Settings.format (s : Settings) : OutputFormat := if s.json then .json else s.output

/-- A command and its settings. -/
structure Invocation where
  settings : Settings
  command : Command
deriving DecidableEq

end ControlClient
