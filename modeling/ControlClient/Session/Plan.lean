import ControlClient.Directory
import ControlClient.Listing
import ControlClient.Session.Exchange

/-!
# Plans

What a command asks of the service. A plan is made from the arguments and the files alone; a command
that was not told enough has none. Carrying a plan out sends its operations one after the other, up to
the first that fails.

## Main results

* `operations_each`: the operations of a plan for some targets are one for each target, in order.
-/

namespace ControlClient

/-- What a command asks of the service. -/
inductive Plan where
  /-- Start a recording and tell its identifier. -/
  | record (source : RecordSource)
  /-- Do these in turn. -/
  | inTurn (operations : List Operation)
  /-- Delete these in turn. -/
  | delete (kind : DeleteKind) (ids : List String)
  /-- Show tasks. -/
  | listTasks (names : List String)
  /-- Show recordings. -/
  | listRecordings (ids : List String)
deriving DecidableEq

/-- The operation that deletes something. -/
def DeleteKind.operation : DeleteKind → String → Operation
  | task, name => .deleteTask name
  | recording, id => .deleteRecording id

/-- The operations of a plan, in order. -/
def Plan.operations : Plan → List Operation
  | record source => [.record source]
  | inTurn operations => operations
  | delete kind ids => ids.map kind.operation
  | listTasks names => [.listTasks names]
  | listRecordings ids => [.listRecordings ids]

/-! ## What a command must be told -/

/-- The usage failure of a command. -/
def CommandName.usage (c : CommandName) (message : String) : Failure := .usage c.name message

/-- What to record. -/
def RecordOptions.source (o : RecordOptions) : Except Failure RecordSource :=
  match o.mode with
  | .stream => .ok (.stream o.duration)
  | .batch => .ok (.batch o.name o.start o.count o.address)
  | .query =>
      match o.type? with
      | none =>
          .error (CommandName.record.usage
            "Must pass --type (streamer|batcher) when recording a query.")
      | some type =>
          if o.query = "" then
            .error (CommandName.record.usage "Must pass --query when recording a query.")
          else .ok (.query o.query type o.address)

/-- How files are opened. -/
abbrev Files := List UInt8 → Except OpenFault Content

/-- The operation that defines a task. -/
def DefineOptions.operation (files : Files) (o : DefineOptions) : Except Failure Operation :=
  match o.script?, o.type? with
  | some path, some type =>
      if o.name = "" ∨ path = [] then .error missing
      else
        match files path with
        | .ok script => .ok (.define o.name type script)
        | .error fault => .error (.file path fault.message)
  | _, _ => .error missing
where
  missing : Failure := CommandName.define.usage "Must pass name, tick and type options."

/-- The plan of a command that works on tasks by name. -/
def planEach (c : CommandName) (operation : String → Operation) (names : List String) :
    Except Failure Plan :=
  if names.isEmpty then .error (c.usage "Must pass at least one task name")
  else .ok (.inTurn (names.map operation))

/-- The plan of a command. The commands that do not need the service ask nothing of it. -/
def Command.plan (files : Files) : Command → Except Failure Plan
  | record o => o.source.map .record
  | define o => (o.operation files).map fun operation => .inTurn [operation]
  | replay o =>
      if o.name = "" ∨ o.id = "" then
        .error (CommandName.replay.usage "Must pass name and id options.")
      else .ok (.inTurn [.replay o.name o.id o.fast])
  | enable names => planEach .enable .enable names
  | disable names => planEach .disable .disable names
  | delete kind? ids =>
      match kind?, ids with
      | some kind, _ :: _ => .ok (.delete kind ids)
      | _, _ =>
          .error (CommandName.delete.usage "Must pass at least one task name or recording ID")
  | list kind? ids =>
      match kind? with
      | some .tasks => .ok (.listTasks ids)
      | some .recordings => .ok (.listRecordings ids)
      | none => .error (CommandName.list.usage "Must specify 'tasks' or 'recordings'")
  | level level? =>
      match level? with
      | some newLevel => .ok (.inTurn [.setLevel newLevel])
      | none => .error (CommandName.level.usage "Must pass a log level")
  | version => .ok (.inTurn [])
  | help _ => .ok (.inTurn [])

theorem operations_each {c : CommandName} {operation : String → Operation} {names : List String}
    {p : Plan} (h : planEach c operation names = .ok p) : p.operations = names.map operation := by
  unfold planEach at h
  split at h
  · cases h
  · cases h; rfl

/-! ## Carrying out -/

/-- Carry out operations that return nothing, in turn. -/
def sendInTurn [DomainMapping] (base : Base) : List Operation → Conversation Unit
  | [] => .ended ()
  | o :: rest => do
      let _ ← o.exchange (α := Acknowledgement) base
      sendInTurn base rest

/-- Carry out a plan; the result is what is printed. -/
def Plan.carryOut [DomainMapping] [Text.Measure] (base : Base) (format : OutputFormat) :
    Plan → Conversation String
  | record source => do
      let created ← (Operation.record source).exchange (α := RecordingCreated) base
      return created.id ++ "\n"
  | inTurn operations => do
      sendInTurn base operations
      return ""
  | delete kind ids => do
      .note (.deleting kind ids)
      sendInTurn base (ids.map kind.operation)
      return ""
  | listTasks names => do
      let list ← (Operation.listTasks names).exchange (α := TaskList) base
      return Listing.tasks format list.tasks ++ "\n"
  | listRecordings ids => do
      let list ← (Operation.listRecordings ids).exchange (α := RecordingList) base
      return Listing.recordings format list.recordings ++ "\n"

end ControlClient
