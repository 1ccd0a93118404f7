import ControlClient.CommandLine.Read
import ControlClient.Span.Canonical

/-!
# Writing a command

A command as words of a command line: the command word, the options that differ from their defaults,
each with its value in the same word, and then, if there are any, two hyphens and the positional
arguments. Written so, no value is taken for an option, whatever it starts with.

The order of the options does not matter to the reader, so the words of the options are a list of their
own.
-/

namespace ControlClient

open CommandLine (Word)

namespace CommandLine

/-- The word that gives an option a value. -/
def optionWord (long : String) (value : Word) : Word :=
  Text.Utf8.bytes ("--" ++ long ++ "=") ++ value

/-- The word of a switch. -/
def switchWord (long : String) : Word := Text.Utf8.bytes ("--" ++ long)

/-- The word of an option whose default is the empty text. -/
def textOption (long s : String) : List Word :=
  if s = "" then [] else [optionWord long (Text.Utf8.bytes s)]

/-- The word of an option with a choice, if there is one. -/
def typeOption (type? : Option TaskType) : List Word :=
  (type?.map fun t => optionWord "type" (Text.Utf8.bytes t.name)).toList

/-- The word after which all words are positional. -/
def separator : Word := [45, 45]

end CommandLine

namespace Command

open CommandLine

/-- The words of the options that do not have their defaults. -/
def optionWords : Command → List Word
  | record o =>
      (if o.duration = Given.defaultSpan then []
        else [optionWord "duration" (Text.Utf8.bytes o.duration.text)])
      ++ textOption "name" o.name
      ++ textOption "start" o.start
      ++ (if o.count = 1 then []
        else [optionWord "num" (Text.Utf8.bytes (Text.intText o.count.toInt))])
      ++ textOption "addr" o.address
      ++ textOption "query" o.query
      ++ typeOption o.type?
  | define o =>
      textOption "name" o.name
      ++ (o.script?.map (optionWord "tick")).toList
      ++ typeOption o.type?
  | replay o =>
      textOption "name" o.name
      ++ textOption "id" o.id
      ++ if o.fast then [switchWord "fast"] else []
  | _ => []

/-- The words of the positional arguments. -/
def positionalWords : Command → List Word
  | record o => [Text.Utf8.bytes o.mode.name]
  | enable names | disable names => names.map Text.Utf8.bytes
  | delete kind? ids => (kind?.map (Text.Utf8.bytes ·.name)).toList ++ ids.map Text.Utf8.bytes
  | list kind? ids => (kind?.map (Text.Utf8.bytes ·.name)).toList ++ ids.map Text.Utf8.bytes
  | level level? => (level?.map Text.Utf8.bytes).toList
  | help topic? => (topic?.map Text.Utf8.bytes).toList
  | _ => []

/-- A command line of a command, with the words of its options in some order. -/
def wordsWith (c : Command) (optionWords : List Word) : List Word :=
  Text.Utf8.bytes c.name.name :: optionWords
    ++ if c.positionalWords.isEmpty then [] else separator :: c.positionalWords

/-- The command line of a command. -/
def words (c : Command) : List Word := c.wordsWith c.optionWords

/-- Whether a command line can say a command: a script has a path, and things that are named have a
kind. -/
def IsWritable : Command → Prop
  | define o => o.script? ≠ some []
  | delete kind? ids => ids = [] ∨ kind?.isSome
  | list kind? ids => ids = [] ∨ kind?.isSome
  | _ => True

instance (c : Command) : Decidable c.IsWritable := by
  cases c <;> unfold IsWritable <;> infer_instance

end Command

end ControlClient
