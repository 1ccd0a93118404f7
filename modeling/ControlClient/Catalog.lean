import ControlClient.Json.Shape

/-!
# Tasks and recordings

What the service keeps: tasks, which are named pipelines, and recordings, which are stored data that a
task can be fed with. Both are read from documents and written as documents with the same field
names; the order in which they are written is the order in which they are declared.
-/

namespace ControlClient

open Json

/-- A named pipeline. -/
structure Task where
  name : String
  type : TaskType
  /-- Whether the task runs on live data. -/
  enabled : Bool
deriving DecidableEq, Repr

/-- Stored data of a stream or of queries. -/
structure Recording where
  id : String
  type : TaskType
  /-- Size in bytes. -/
  size : Int64
deriving DecidableEq

/-! ## Documents -/

/-- The document of a task. -/
def Task.toValue (t : Task) : Value :=
  .object [("Name", .string t.name), ("Type", .string t.type.documentName), ("Enabled", .bool t.enabled)]

/-- The document of a recording. -/
def Recording.toValue (r : Recording) : Value :=
  .object [("ID", .string r.id), ("Type", .string r.type.documentName), ("Size", .integer r.size.toInt)]

/-- The task whose fields are these members. A task that says nothing else is not enabled. -/
def Task.ofMembers (members : Members) : Except ShapeFault Task := do
  let enabled? ← readOptional Value.asBool (get? "Enabled" members)
  let name? ← readOptional Value.asString (get? "Name" members)
  let type? ← readOptional Value.asTaskType (get? "Type" members)
  let name ← required "Name" name?
  let type ← required "Type" type?
  return ⟨name, type, enabled?.getD false⟩

/-- The task whose fields are these items. -/
def Task.ofItems (items : List Value) : Except ShapeFault Task := do
  let name ← itemAt Value.asString items 0 "struct Task with 3 elements"
  let type ← itemAt Value.asTaskType items 1 "struct Task with 3 elements"
  let enabled? ← readOptional Value.asBool items[2]?
  atMost 3 items
  return ⟨name, type, enabled?.getD false⟩

/-- The task that a document denotes. -/
def Task.ofValue : Value → Except ShapeFault Task :=
  Value.asRecord "Task" Task.ofMembers Task.ofItems

/-- The recording whose fields are these members. A recording that does not say its size has none. -/
def Recording.ofMembers (members : Members) : Except ShapeFault Recording := do
  let id? ← readOptional Value.asString (get? "ID" members)
  let size? ← readOptional Value.asInt64 (get? "Size" members)
  let type? ← readOptional Value.asTaskType (get? "Type" members)
  let id ← required "ID" id?
  let type ← required "Type" type?
  return ⟨id, type, size?.getD 0⟩

/-- The recording whose fields are these items. -/
def Recording.ofItems (items : List Value) : Except ShapeFault Recording := do
  let id ← itemAt Value.asString items 0 "struct Recording with 3 elements"
  let type ← itemAt Value.asTaskType items 1 "struct Recording with 3 elements"
  let size? ← readOptional Value.asInt64 items[2]?
  atMost 3 items
  return ⟨id, type, size?.getD 0⟩

/-- The recording that a document denotes. -/
def Recording.ofValue : Value → Except ShapeFault Recording :=
  Value.asRecord "Recording" Recording.ofMembers Recording.ofItems

end ControlClient
