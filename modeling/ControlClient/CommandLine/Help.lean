import ControlClient.CommandLine.Levels

/-!
# Help pages

The help of a level, as a summary with one line for each argument, or as a full page with a paragraph
for each. Both are made from the tables of the level. A page names the value of each environment
variable that an option reads.

Options are listed by their rank: the first option of the level and the first option of all levels come
before the second ones, and options of one rank stand in the order of their short or long names. The
switch for help is last.
-/

namespace ControlClient.CommandLine

/-- What the environment gives to a command line. -/
structure Environment where
  /-- The bytes of the variable with the address of the service, if it is set. -/
  url? : Option (List UInt8)
deriving DecidableEq, Repr

namespace Environment

/-- The value of a variable as a page shows it; what is not text in it is replaced. -/
def value? (e : Environment) (name : String) : Option String :=
  if name = urlVariable then e.url?.map Text.Utf8.lossyText else none

/-- The address of the service, if the variable is set and is text. -/
def address? (e : Environment) : Option String := e.url?.bind Text.Utf8.text?

/-- Whether the variable is text, if it is set. -/
def isText (e : Environment) : Bool := e.url?.all fun value => (Text.Utf8.text? value).isSome

end Environment

/-- How much a help page tells. -/
inductive Detail where
  | summary
  | full
deriving DecidableEq, Repr

namespace Help

/-! ## Layout -/

/-- So many blanks. -/
def blanks (n : Nat) : String := String.ofList (List.replicate n ' ')

/-- A text with so many blanks behind each line end. -/
def hang (n : Nat) (s : String) : String :=
  String.ofList (s.toList.flatMap fun c => if c = '\n' then c :: List.replicate n ' ' else [c])

/-- A text filled up with blanks to a width. -/
def padTo (width : Nat) (s : String) : String := s ++ blanks (width - s.length)

/-- The greatest length of some texts. -/
def widest (ss : List String) : Nat := ss.foldl (fun n s => max n s.length) 0

/-- Lines with a head and a text beside it; the texts stand in a column. -/
def columns (items : List (String × String)) : List String :=
  let width := widest (items.map (·.1))
  items.map fun (head, text) => "  " ++ padTo width head ++ "  " ++ hang (width + 4) text

/-- The indent of a paragraph. -/
def indent : Nat := 10

/-- A head and below it a text. -/
def paragraph (head text : String) : String := "  " ++ head ++ "\n" ++ blanks indent ++ text

/-! ## What a page tells of an argument -/

/-- A default value; an empty one is shown by its quotes. -/
def defaultText (value : String) : String := if value.isEmpty then "\"\"" else value

/-- Where the value of an option comes from if it is not given. -/
def notes (env : Environment) (o : OptionSpec) : List String :=
  (o.environment?.map fun v => "[env: " ++ v ++ "=" ++ (env.value? v).getD "" ++ "]").toList
    ++ (o.default?.map fun d => "[default: " ++ defaultText d ++ "]").toList

/-- The names of some choices in a line. -/
def choiceNote (choices : List Choice) : List String :=
  if choices.isEmpty then []
  else ["[possible values: " ++ ", ".intercalate (choices.map (·.name)) ++ "]"]

/-- The names of some choices as a list with their helps. -/
def choiceList (choices : List Choice) : String :=
  let margin := "\n" ++ blanks indent
  let width := widest (choices.map (·.name))
  margin ++ "Possible values:" ++ String.join (choices.map fun c =>
    margin ++ "- " ++ padTo (width + 2) (c.name ++ ":") ++ c.help)

/-- The help of an argument in a line. -/
def summaryText (help : String) (notes : List String) (choices : List Choice) : String :=
  " ".intercalate (help :: notes ++ choiceNote choices)

/-- The help of an argument as a paragraph. -/
def fullText (help : String) (notes : List String) (choices : List Choice) : String :=
  help
    ++ (if choices.isEmpty then "" else "\n" ++ choiceList choices)
    ++ (if notes.isEmpty then "" else hang indent ("\n\n" ++ "\n".intercalate notes))

/-- The head of an option: its names and the value that it takes. -/
def optionHead (o : OptionSpec) : String :=
  (match o.short? with
    | some c => "-" ++ c.toString ++ ", "
    | none => blanks 4) ++ o.form

/-- The name under which an option is listed. -/
def optionKey (o : OptionSpec) : String := (o.short?.map Char.toString).getD o.long

/-- The options of a level as they are listed, without the switch for help. -/
def listedOptions (l : Level) : List OptionSpec :=
  let ranked := l.own.zipIdx ++ globalOptions.zipIdx
  (ranked.mergeSort fun (o, m) (p, n) => m < n || m == n && optionKey o ≤ optionKey p).map (·.1)

/-- What the switch for help does on a page. -/
def helpText : Detail → String
  | .summary => "Print help (see more with '--help')"
  | .full => "Print help (see a summary with '-h')"

/-- Heads and texts of the options of a level. -/
def optionItems (env : Environment) (detail : Detail) (l : Level) : List (String × String) :=
  let text (o : OptionSpec) : String :=
    match detail with
    | .summary => summaryText o.help (notes env o) o.choices
    | .full => fullText o.help (notes env o) o.choices
  (listedOptions l).map (fun o => (optionHead o, text o))
    ++ [(optionHead helpSwitch, helpText detail)]

/-- Heads and texts of the positional arguments of a level. -/
def positionalItems (detail : Detail) (l : Level) : List (String × String) :=
  l.positionals.map fun p =>
    (p.form, match detail with
      | .summary => summaryText p.help [] p.choices
      | .full => fullText p.help [] p.choices)

/-! ## Pages -/

/-- How a level is written. -/
def usageLine (l : Level) : String :=
  let words := match l.command? with
    | some c => [c.name, "[OPTIONS]"] ++ l.positionals.map (·.form)
    | none => ["[OPTIONS]", "<COMMAND>"]
  "Usage: " ++ " ".intercalate ("kapacitor" :: words)

/-- A part of a page under a title. -/
def part (title : String) (lines : List String) (gap : String) : List String :=
  if lines.isEmpty then [] else [title ++ ":\n" ++ gap.intercalate lines]

/-- The arguments of a level as lines or as paragraphs. -/
def arguments (detail : Detail) (title : String) (items : List (String × String)) : List String :=
  match detail with
  | .summary => part title (columns items) "\n"
  | .full => part title (items.map fun (head, text) => paragraph head text) "\n\n"

/-- The commands, with a line for each. -/
def commandItems : List (String × String) :=
  CommandName.all.map fun c => (c.name, (Level.ofCommand c).about)

/-- The help page of a level. -/
def page (env : Environment) (detail : Detail) (l : Level) : String :=
  let full := detail == .full
  let parts :=
    [if full then l.longAbout else l.about, usageLine l]
      ++ (if l.command?.isNone then part "Commands" (columns commandItems) "\n" else [])
      ++ arguments detail "Arguments" (positionalItems detail l)
      ++ arguments detail "Options" (optionItems env detail l)
      ++ (if full && !l.epilogue.isEmpty then [l.epilogue] else [])
  "\n\n".intercalate parts ++ "\n"

/-- The usage of the client: a summary of the words before the command word. -/
def general (env : Environment) : String := page env .summary Level.top

/-- The usage of a command: its full page. -/
def command (env : Environment) (c : CommandName) : String := page env .full (Level.ofCommand c)

/-- The usage of the command of a name. -/
def command? (env : Environment) (name : String) : Option String :=
  (CommandName.ofName? name).map (command env)

end Help

end ControlClient.CommandLine
