import ControlClient.Base
import ControlClient.CommandLine.Argument

/-!
# Grammar

What a command line is made of. A level is the part of a command line that one table governs: the
words before the command word, or those after it. Each level lists its positional arguments and its
options with the words of their help. The reader and the help pages work from the same tables.

An argument has a usage form, which names it in a fault: `--num <N>`, `--json`, `<MODE>`, `[KIND]`,
`[TASK]...`.
-/

namespace ControlClient.CommandLine

/-- One of the values that an argument takes, with its help. -/
structure Choice where
  name : String
  help : String
deriving DecidableEq, Repr

/-- An argument that is given by name. -/
structure OptionSpec where
  arg : Arg
  /-- The name after two hyphens. -/
  long : String
  help : String
  /-- The name after one hyphen. -/
  short? : Option Char := none
  /-- What stands for the value in the usage; a switch has no value. -/
  valueName? : Option String := none
  /-- A switch that counts may be given more than once. -/
  counts : Bool := false
  choices : List Choice := []
  /-- The environment variable that gives the value when the option is absent. -/
  environment? : Option String := none
  /-- The value when nothing gives one. -/
  default? : Option String := none
deriving DecidableEq, Repr

/-- An argument that is given by its place. -/
structure PositionalSpec where
  arg : Arg
  name : String
  help : String
  required : Bool := false
  /-- It takes all the words that follow. -/
  many : Bool := false
  choices : List Choice := []
deriving DecidableEq, Repr

/-- A part of a command line with a table of its own. -/
structure Level where
  /-- The command of the level; none for the words before the command word. -/
  command? : Option CommandName
  /-- What it is, in a line. -/
  about : String
  /-- What it is, in full. -/
  longAbout : String
  /-- What stands after everything else on the full page. -/
  epilogue : String := ""
  positionals : List PositionalSpec := []
  /-- The options that only this level has. -/
  own : List OptionSpec := []
deriving DecidableEq, Repr

/-! ## Usage forms -/

/-- The form of an option. -/
def OptionSpec.form (o : OptionSpec) : String :=
  match o.valueName? with
  | some v => "--" ++ o.long ++ " <" ++ v ++ ">"
  | none => "--" ++ o.long ++ (if o.counts then "..." else "")

/-- The form of a positional argument. -/
def PositionalSpec.form (p : PositionalSpec) : String :=
  (if p.required then "<" ++ p.name ++ ">" else "[" ++ p.name ++ "]")
    ++ (if p.many then "..." else "")

/-! ## Options of all levels -/

/-- The names of the output formats. -/
def formatChoices : List Choice :=
  [⟨OutputFormat.table.name, "Column-aligned table with headers"⟩,
    ⟨OutputFormat.json.name, "Pretty-printed JSON array"⟩]

/-- The name of the variable that holds the address of the service. -/
def urlVariable : String := "KAPACITOR_URL"

/-- The options that every level has. -/
def globalOptions : List OptionSpec :=
  [{ arg := .url, long := "url", help := "Base URL of the Kapacitor control service",
      valueName? := some "URL", environment? := some urlVariable, default? := some defaultAddress },
    { arg := .output, long := "output", help := "Output format for `list`",
      valueName? := some "FORMAT", choices := formatChoices,
      default? := some OutputFormat.table.name },
    { arg := .json, long := "json", help := "Shorthand for --output json" },
    { arg := .debug, long := "debug", help := "Log requests to stderr (-d debug, -dd trace)",
      short? := some 'd', counts := true }]

/-- The switch that asks for help. -/
def helpSwitch : OptionSpec := { arg := .help, long := "help", help := "Print help", short? := some 'h' }

namespace Level

/-- All options of a level. -/
def options (l : Level) : List OptionSpec := l.own ++ globalOptions ++ [helpSwitch]

/-- The option of a long name. -/
def long? (l : Level) (name : String) : Option OptionSpec := l.options.find? (·.long = name)

/-- The option of a short name. -/
def short? (l : Level) (c : Char) : Option OptionSpec := l.options.find? (·.short? = some c)

end Level

end ControlClient.CommandLine
