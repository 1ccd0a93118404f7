import ControlClient.Json.Value
import ControlClient.Number.Int64
import ControlClient.TaskType
import ControlClient.Text.Digits
import ControlClient.Text.Quoted

/-!
# Shapes of documents

Reading the parts of a document as strings, switches, 64-bit integers, task types and lists. A part
that is something else is a `ShapeFault`, which says what was found and what was expected.

A record is written as an object or as an array. In an object its fields are looked at in the order
of their keys and unknown keys are passed over; in an array its fields stand in the order in which
they are declared, and those at the end may be left out if they have a default.
-/

namespace ControlClient.Json

/-- Why a document does not have the shape that is wanted. -/
inductive ShapeFault where
  /-- A field without a default is absent. -/
  | missingField (name : String)
  /-- Something else stands there than is expected. -/
  | unexpected (found : Value) (expected : String)
  /-- An integer is beyond the range of 64-bit integers. -/
  | beyondInt64 (n : Int)
  /-- An array has too few items or too many. -/
  | badLength (length : Nat) (expected : String)
  /-- No task type goes by this name. -/
  | unknownType (name : String)
  /-- No task type has this code. -/
  | unknownTypeCode (code : Int64)
  /-- A task type is neither a name nor a code. -/
  | noType
deriving Repr

/-- What a document is, in words. -/
def Value.describe : Value → String
  | .null => "null"
  | .bool true => "boolean `true`"
  | .bool false => "boolean `false`"
  | .integer n => "integer `" ++ Text.intText n ++ "`"
  | .fractional x => "floating point `" ++ x.text ++ "`"
  | .string s => "string " ++ Text.Quoted.text s
  | .array _ => "sequence"
  | .object _ => "map"

/-- What is wrong, in words. -/
def ShapeFault.message : ShapeFault → String
  | missingField name => "missing field `" ++ name ++ "`"
  | unexpected found expected => "invalid type: " ++ found.describe ++ ", expected " ++ expected
  | beyondInt64 n => "invalid value: integer `" ++ Text.intText n ++ "`, expected i64"
  | badLength length expected =>
      "invalid length " ++ Text.digitText length ++ ", expected " ++ expected
  | unknownType name => TaskType.unknownName name
  | unknownTypeCode code => "unknown task type code " ++ Text.intText code.toInt
  | noType => "data did not match any variant of untagged enum RawTaskType"

/-! ## Single values -/

/-- A string. -/
def Value.asString : Value → Except ShapeFault String
  | .string s => .ok s
  | v => .error (.unexpected v "a string")

/-- A truth value. -/
def Value.asBool : Value → Except ShapeFault Bool
  | .bool b => .ok b
  | v => .error (.unexpected v "a boolean")

/-- A 64-bit integer. -/
def Value.asInt64 : Value → Except ShapeFault Int64
  | .integer n =>
      match Number.int64? n with
      | some word => .ok word
      | none => .error (.beyondInt64 n)
  | v => .error (.unexpected v "i64")

/-- The task type of a code. -/
def typeOfCode? (code : Int64) : Option TaskType :=
  if code = 0 then some .stream else if code = 1 then some .batch else none

/-- A task type, by one of its names or by its code. -/
def Value.asTaskType : Value → Except ShapeFault TaskType
  | .string s =>
      match TaskType.ofName? s with
      | some t => .ok t
      | none => .error (.unknownType s)
  | .integer n =>
      match Number.int64? n with
      | some code =>
          match typeOfCode? code with
          | some t => .ok t
          | none => .error (.unknownTypeCode code)
      | none => .error .noType
  | _ => .error .noType

/-! ## Lists and records -/

/-- All items of a list, or the fault of the first that has one. -/
def readAll {α : Type} (readItem : Value → Except ShapeFault α) :
    List Value → Except ShapeFault (List α)
  | [] => .ok []
  | v :: rest => do
      let a ← readItem v
      let as ← readAll readItem rest
      return a :: as

/-- A list; an empty one may be written as `null`. -/
def Value.asList {α : Type} (readItem : Value → Except ShapeFault α) :
    Value → Except ShapeFault (List α)
  | .null => .ok []
  | .array items => readAll readItem items
  | v => .error (.unexpected v "a sequence")

/-- A field that may be absent. -/
def readOptional {α : Type} (readField : Value → Except ShapeFault α) :
    Option Value → Except ShapeFault (Option α)
  | none => .ok none
  | some v => (readField v).map some

/-- A field that was found, or the fault that it is missing. -/
def required {α : Type} (name : String) : Option α → Except ShapeFault α
  | some a => .ok a
  | none => .error (.missingField name)

/-- An item that must be there, of a record that is written as an array. -/
def itemAt {α : Type} (readItem : Value → Except ShapeFault α) (items : List Value) (i : Nat)
    (expected : String) : Except ShapeFault α :=
  match items[i]? with
  | some v => readItem v
  | none => .error (.badLength i expected)

/-- An array may have at most so many items. -/
def atMost (count : Nat) (items : List Value) : Except ShapeFault Unit :=
  if items.length ≤ count then .ok ()
  else .error (.badLength items.length "fewer elements in array")

/-- A record, by its members or by its items. -/
def Value.asRecord {α : Type} (name : String) (ofMembers : Members → Except ShapeFault α)
    (ofItems : List Value → Except ShapeFault α) : Value → Except ShapeFault α
  | .object members => ofMembers members
  | .array items => ofItems items
  | v => .error (.unexpected v ("struct " ++ name))

end ControlClient.Json
