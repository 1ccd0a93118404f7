/-!
# Task types

A task consumes the live stream or runs scheduled queries, and a recording holds data of either
kind. Each type has one name that is written and a shorter one that is also read. What is written in
requests, what is written in documents and what is read are tables of their own; that they fit together
is proved of them.

## Main results

* `ofName?_name`, `ofName?_documentName`: the name that is written is read back as the same type.
* `ofName?_eq_some_iff`: the names of a type are the written one and its short form, no others.
-/

namespace ControlClient

/-- What a task runs on, and what a recording holds. -/
inductive TaskType where
  /-- The live data stream. -/
  | stream
  /-- Scheduled queries. -/
  | batch
deriving DecidableEq, Repr, Inhabited

namespace TaskType

/-- The name that is written in requests and tables. -/
def name : TaskType → String
  | stream => "streamer"
  | batch => "batcher"

/-- The name that is written in documents. -/
def documentName : TaskType → String
  | stream => "streamer"
  | batch => "batcher"

/-- The short name, which is read but never written. -/
def shortName : TaskType → String
  | stream => "stream"
  | batch => "batch"

/-- All types, in the order in which they are listed. -/
def all : List TaskType := [stream, batch]

/-- The type that goes by a name. -/
def ofName? : String → Option TaskType
  | "streamer" | "stream" => some stream
  | "batcher" | "batch" => some batch
  | _ => none

/-- What is said of a name that no type goes by. -/
def unknownName (s : String) : String := "unknown task type '" ++ s ++ "'"

theorem ofName?_eq_some_iff {s : String} {t : TaskType} :
    ofName? s = some t ↔ s = t.name ∨ s = t.shortName := by
  constructor
  · intro h
    unfold ofName? at h
    split at h
    · cases h
      exact .inl rfl
    · cases h
      exact .inr rfl
    · cases h
      exact .inl rfl
    · cases h
      exact .inr rfl
    · cases h
  · rintro (rfl | rfl) <;> cases t <;> rfl

theorem ofName?_name (t : TaskType) : ofName? t.name = some t :=
  ofName?_eq_some_iff.2 (.inl rfl)

theorem ofName?_documentName (t : TaskType) : ofName? t.documentName = some t := by
  cases t <;> rfl

end TaskType

end ControlClient
