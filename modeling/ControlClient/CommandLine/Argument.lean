import ControlClient.CommandLine.Command
import ControlClient.Number.Int64
import ControlClient.Span.Notation
import ControlClient.Text.Utf8

/-!
# Arguments

The options and positional arguments of all commands, the values that they take, and how the bytes of
a word are read as a value. A word need not be UTF-8: a path may be any bytes but none, and other
values say so when they are not text.
-/

namespace ControlClient.CommandLine

/-- The bytes of a word. -/
abbrev Word := List UInt8

/-- What can be given on a command line. -/
inductive Arg where
  | url
  | output
  | json
  | debug
  | help
  | mode
  | duration
  | name
  | start
  | count
  | address
  | query
  | type
  | script
  | id
  | fast
  | tasks
  | deleteKind
  | listKind
  | ids
  | level
  | topic
deriving DecidableEq, Repr

/-- The value of an argument. -/
inductive Datum where
  | text (s : String)
  | path (bytes : Word)
  | span (d : Span)
  | int (n : Int64)
  | type (t : TaskType)
  | format (f : OutputFormat)
  | mode (m : RecordMode)
  | deleteKind (k : DeleteKind)
  | listKind (k : ListKind)
  /-- An option without a value was given. -/
  | on
deriving DecidableEq

/-- What is wrong with the value of an argument. -/
inductive ValueFault where
  /-- It is not one that the argument takes; this is the value as text. -/
  | notAllowed (value : String)
  /-- It cannot be read, for this reason. -/
  | unreadable (value reason : String)
  /-- It is not UTF-8. -/
  | notText
  /-- It leads to a number that is too large while it is read, and nothing checks that. -/
  | overflow
deriving DecidableEq, Repr

/-! ## Reading values -/

/-- A text. -/
def readText (word : Word) : Except ValueFault String :=
  match Text.Utf8.text? word with
  | some s => .ok s
  | none => .error .notText

/-- One of some choices. -/
def readChoice {α : Type} (ofName? : String → Option α) (word : Word) : Except ValueFault α :=
  match (Text.Utf8.text? word).bind ofName? with
  | some a => .ok a
  | none => .error (.notAllowed (Text.Utf8.lossyText word))

/-- A time span. -/
def readSpan (word : Word) : Except ValueFault Span := do
  let s ← readText word
  match Span.read s with
  | .ok d => return d
  | .error (.fault fault) => throw (.unreadable s (fault.message s))
  | .error .overflow => throw .overflow

/-- An integer. -/
def readInt (word : Word) : Except ValueFault Int64 := do
  let s ← readText word
  match Number.readInt64 s.toList with
  | .ok n => return n
  | .error fault => throw (.unreadable s fault.message)

/-- A path, which is not empty. -/
def readPath (word : Word) : Except ValueFault Word :=
  if word.isEmpty then .error (.notAllowed "") else .ok word

/-- The value of an argument. -/
def Arg.read (a : Arg) (word : Word) : Except ValueFault Datum :=
  match a with
  | output => (readChoice OutputFormat.ofName? word).map .format
  | mode => (readChoice RecordMode.ofName? word).map .mode
  | type => (readChoice TaskType.ofChoice? word).map .type
  | deleteKind => (readChoice DeleteKind.ofName? word).map .deleteKind
  | listKind => (readChoice ListKind.ofName? word).map .listKind
  | duration => (readSpan word).map .span
  | count => (readInt word).map .int
  | script => (readPath word).map .path
  | _ => (readText word).map .text

/-! ## Faults -/

/-- What is wrong with an argument, which is named by the form in which its usage shows it. -/
inductive ArgumentFault where
  /-- There is no such argument. -/
  | unknown (word : String)
  /-- The value is not one that the argument takes. -/
  | notAllowed (form value : String)
  /-- The value cannot be read. -/
  | unreadable (form value reason : String)
  /-- An argument that is required is absent. -/
  | missing (form : String)
  /-- The argument excludes one that was given, or was given before. -/
  | conflict (form : String)
  /-- A value was given to an option that takes none. -/
  | surplusValue (form value : String)
  /-- A value is not UTF-8. -/
  | notText
  /-- A value leads to a number that is too large while it is read. Nothing checks that: the program
  breaks off instead of reporting the argument. -/
  | overflow
deriving DecidableEq, Repr

/-- The fault of an argument with a value that is at fault. -/
def ValueFault.ofArgument (form : String) : ValueFault → ArgumentFault
  | notAllowed value => .notAllowed form value
  | unreadable value reason => .unreadable form value reason
  | notText => .notText
  | overflow => .overflow

/-- What is wrong, in words. -/
def ArgumentFault.message : ArgumentFault → String
  | unknown word => "unexpected argument '" ++ word ++ "' found"
  | notAllowed form "" => "a value is required for '" ++ form ++ "' but none was supplied"
  | notAllowed form value => "invalid value '" ++ value ++ "' for '" ++ form ++ "'"
  | unreadable form value reason =>
      "invalid value '" ++ value ++ "' for '" ++ form ++ "': " ++ reason
  | missing form => "the following required arguments were not provided:\n  " ++ form
  | conflict form => "the argument '" ++ form ++ "' cannot be used here"
  | surplusValue form value => "unexpected value '" ++ value ++ "' for '" ++ form ++ "' found"
  | notText => "invalid UTF-8 was detected in one or more arguments"
  | overflow => "attempt to add with overflow"

/-- The exit code of a run that ends with a fault of an argument; 101 stands for a program that breaks
off. -/
def ArgumentFault.exitCode : ArgumentFault → Nat
  | overflow => 101
  | _ => 2

theorem ArgumentFault.exitCode_of_ne {fault : ArgumentFault} (h : fault ≠ overflow) :
    fault.exitCode = 2 := by
  cases fault with
  | overflow => exact absurd rfl h
  | _ => rfl

theorem ArgumentFault.exitCode_cases (fault : ArgumentFault) :
    fault.exitCode = 2 ∨ fault.exitCode = 101 := by
  cases fault with
  | overflow => exact .inr rfl
  | _ => exact .inl rfl

@[simp] theorem ArgumentFault.exitCode_ne_one (fault : ArgumentFault) : fault.exitCode ≠ 1 := by
  rcases fault.exitCode_cases with h | h <;> simp [h]

end ControlClient.CommandLine
