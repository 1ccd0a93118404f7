import ControlClient.CommandLine.Help

/-!
# Reading a command line

A command line is read word by word, first with the table of all commands up to the command word, then
with the table of that command. Within a level, options and positional arguments may be mixed, until a
word `--` after which all words are positional.

An argument is pending while its words are collected. It is settled, that is its words are read as
values and noted, when the next argument starts or the level ends. So a fault in its words is reported
before a fault of what follows, but not before a word that fits nowhere, which is reported at once.

Words are bytes: 45 is the hyphen in front of a name, and 61 the equals sign between name and value.

An option that both levels give has the value of the later one. The address of the service comes from
the environment, and then from the table, if neither level gives it. Each level that does not give it
reads the variable of the environment for itself, and so rejects a value that is not text, even where the
other level gives the address.
-/

namespace ControlClient.CommandLine

/-- Why a command line is not carried out. -/
inductive Rejection where
  /-- It holds no command word. -/
  | missingCommand
  /-- A word stands where a command word should. -/
  | unknownCommand (name : String)
  /-- It asks for help, on a command or in general. -/
  | help (detail : Detail) (command? : Option CommandName)
  /-- An argument is at fault. -/
  | argument (fault : ArgumentFault)
deriving DecidableEq, Repr

/-- The exit code of a command line that is not carried out. -/
def Rejection.exitCode : Rejection → Nat
  | missingCommand => 1
  | unknownCommand _ => 1
  | help _ _ => 0
  | argument fault => fault.exitCode

/-! ## What was given -/

/-- The arguments that a level gave, with their values, in order. -/
abbrev Given := List (Arg × Datum)

namespace Given

/-- Whether an argument was given. -/
def has (g : Given) (a : Arg) : Bool := g.any (·.1 = a)

/-- The value of an argument. -/
def value? (g : Given) (a : Arg) : Option Datum := (g.find? (·.1 = a)).map (·.2)

/-- All values of an argument. -/
def values (g : Given) (a : Arg) : List Datum := (g.filter (·.1 = a)).map (·.2)

end Given

/-! ## Reading a level -/

/-- An argument whose words are being collected. An option with no word awaits its value. -/
structure Pending where
  arg : Arg
  form : String
  /-- Whether it may be given more than once. -/
  many : Bool
  words : List Word
deriving DecidableEq

/-- How far a level has been read. -/
structure Progress where
  given : Given
  pending? : Option Pending
  /-- The positional arguments that can still be given. -/
  places : List PositionalSpec
  /-- Whether all words are positional from here on. -/
  trailing : Bool
deriving DecidableEq

/-- Nothing of a level has been read. -/
def Level.start (l : Level) : Progress := ⟨[], none, l.positionals, false⟩

/-- The words of an argument as values. -/
def Pending.data (p : Pending) : Except ArgumentFault (List Datum) :=
  match p.words.mapM p.arg.read with
  | .ok values => .ok values
  | .error fault => .error (fault.ofArgument p.form)

/-- Note the values of an argument. -/
def Pending.settle (p : Pending) (given : Given) : Except ArgumentFault Given := do
  if p.words.isEmpty then throw (.notAllowed p.form "")
  if !p.many && given.has p.arg then throw (.conflict p.form)
  return given ++ (← p.data).map (p.arg, ·)

namespace Progress

/-- Whether the next word is the value of an option. -/
def awaits (s : Progress) : Bool := s.pending?.any (·.words.isEmpty)

/-- Whether the next positional word belongs to the argument that is pending. -/
def collects (s : Progress) (p : PositionalSpec) : Bool :=
  p.many && s.pending?.any (·.arg = p.arg)

/-- Add a word to the argument that is pending. -/
def push (s : Progress) (word : Word) : Progress :=
  { s with pending? := s.pending?.map fun p => { p with words := p.words ++ [word] } }

/-- Settle the argument that is pending. -/
def settle (s : Progress) : Except ArgumentFault Progress :=
  match s.pending? with
  | none => .ok s
  | some p => (p.settle s.given).map fun given => { s with given, pending? := none }

/-- Start a new argument with some of its words. -/
def begin (s : Progress) (arg : Arg) (form : String) (many : Bool) (words : List Word) :
    Except ArgumentFault Progress :=
  s.settle.map fun s => { s with pending? := some ⟨arg, form, many, words⟩ }

end Progress

namespace Environment

/-- Whether a level need not read the variable, or can. -/
def Serves (env : Environment) (g : Given) : Prop := g.has .url = true ∨ env.isText = true

instance (env : Environment) (g : Given) : Decidable (env.Serves g) :=
  inferInstanceAs (Decidable (_ ∨ _))

/-- Refuse a variable that is not text, at a level that does not give the address. -/
def check (env : Environment) (g : Given) : Except ArgumentFault Unit :=
  if env.Serves g then .ok () else .error .notText

theorem check_eq_ok_iff {env : Environment} {g : Given} : env.check g = .ok () ↔ env.Serves g := by
  unfold check
  split <;> simp [*]

end Environment

namespace Level

/-- A fault of an argument ends the reading. -/
def faulty {α : Type} (e : Except ArgumentFault α) : Except Rejection α :=
  e.mapError .argument

/-- A switch of a level. -/
def readSwitch (l : Level) (s : Progress) (o : OptionSpec) (detail : Detail) :
    Except Rejection Progress := do
  let s ← faulty s.settle
  if o.arg = .help then throw (.help detail l.command?)
  if !o.counts && s.given.has o.arg then throw (.argument (.conflict o.form))
  return { s with given := s.given ++ [(o.arg, .on)] }

/-- The name and the value of an option, which stand on either side of an equals sign. -/
def nameAndValue (body : Word) : Word × Option Word :=
  (body.takeWhile (· ≠ 61), (body.dropWhile (· ≠ 61)).tail?)

/-- A word behind two hyphens. -/
def readLong (l : Level) (s : Progress) (body : Word) : Except Rejection Progress :=
  let (name, value?) := nameAndValue body
  match (Text.Utf8.text? name).bind l.long? with
  | none => throw (.argument (.unknown ("--" ++ Text.Utf8.lossyText name)))
  | some o =>
      match o.valueName?, value? with
      | none, none => l.readSwitch s o .full
      | none, some value =>
          throw (.argument (.surplusValue o.form (Text.Utf8.lossyText value)))
      | some _, none => faulty (s.begin o.arg o.form false [])
      | some _, some value => faulty (do (← s.begin o.arg o.form false [value]).settle)

/-- The switches behind one hyphen. -/
def readShort (l : Level) (s : Progress) (body : Word) : Except Rejection Progress := do
  let (names, others) := Text.Utf8.leading body
  let s ← names.foldlM (m := Except Rejection) (fun s c =>
    match l.short? c with
    | some o => l.readSwitch s o .summary
    | none => throw (.argument (.unknown ("-" ++ c.toString)))) s
  if others.isEmpty then return s
  throw (.argument (.unknown ("-" ++ Text.Utf8.lossyText others)))

/-- The command of a command word. -/
def commandOf? (word : Word) : Option CommandName :=
  (Text.Utf8.text? word).bind CommandName.ofName?

/-- A word for which a level has no place. -/
def surplus (l : Level) (word : Word) : Rejection :=
  let text := Text.Utf8.lossyText word
  if l.command?.isNone && (commandOf? word).isNone then .unknownCommand text
  else .argument (.unknown text)

/-- A positional word. -/
def readPlace (l : Level) (s : Progress) (word : Word) : Except Rejection Progress :=
  match s.places with
  | [] => throw (l.surplus word)
  | p :: rest =>
      if s.collects p then .ok (s.push word)
      else
        let places := if p.many then p :: rest else rest
        faulty ((s.begin p.arg p.form p.many [word]).map ({ · with places }))

/-- One word of a level. -/
def readWord (l : Level) (s : Progress) (word : Word) : Except Rejection Progress :=
  if s.trailing then l.readPlace s word
  else
    match word with
    | [45, 45] => .ok { s with trailing := true }
    | 45 :: 45 :: body => l.readLong s body
    | 45 :: b :: body => l.readShort s (b :: body)
    | _ => if s.awaits then .ok (s.push word) else l.readPlace s word

/-- The arguments of a level whose options exclude each other. -/
def exclusive : List Arg := [.output, .json]

/-- Refuse options that exclude each other; the first that was given is reported. -/
def checkExclusive (l : Level) (g : Given) : Except ArgumentFault Unit :=
  if exclusive.all g.has then
    match (g.find? (exclusive.contains ·.1)).bind fun e => l.options.find? (·.arg = e.1) with
    | some o => .error (.conflict o.form)
    | none => .ok ()
  else .ok ()

/-- What a level gave, when all its words are read. -/
def finish (env : Environment) (s : Progress) : Except Rejection Given := do
  let s ← faulty s.settle
  faulty (env.check s.given)
  return s.given

/-- All words of a command. -/
def readWords (l : Level) (env : Environment) (words : List Word) : Except Rejection Given := do
  let given ← finish env (← words.foldlM (l.readWord · ·) l.start)
  faulty (l.checkExclusive given)
  return given

/-- The words before the command word: how far they were read, and the command word with the words
behind it. -/
def readToCommand (l : Level) (s : Progress) :
    List Word → Except Rejection (Progress × Option (CommandName × List Word))
  | [] => .ok (s, none)
  | word :: rest =>
      match if s.trailing || s.awaits then none else commandOf? word with
      | some c => .ok (s, some (c, rest))
      | none => do l.readToCommand (← l.readWord s word) rest

end Level

/-! ## Commands and settings -/

namespace Datum

/-- The text of a value. -/
def text? : Datum → Option String
  | text s => some s
  | _ => none

end Datum

namespace Given

/-- The text of an argument, which is empty by default. -/
def textOf (g : Given) (a : Arg) : String := ((g.value? a).bind Datum.text?).getD ""

/-- The texts of an argument. -/
def textsOf (g : Given) (a : Arg) : List String := (g.values a).filterMap Datum.text?

/-- The task type that was given. -/
def type? (g : Given) : Option TaskType :=
  match g.value? .type with
  | some (.type t) => some t
  | _ => none

/-- The span by default: five minutes. -/
def defaultSpan : Span := ⟨5 * TimeUnit.minute.nanos, by decide⟩

/-- The options of `record` with a mode. -/
def recordOptions (g : Given) (mode : RecordMode) : RecordOptions where
  mode
  duration := match g.value? .duration with | some (.span d) => d | _ => defaultSpan
  name := g.textOf .name
  start := g.textOf .start
  count := match g.value? .count with | some (.int n) => n | _ => 1
  address := g.textOf .address
  query := g.textOf .query
  type? := g.type?

/-- The command of a command word with the arguments that were given. -/
def command (g : Given) : CommandName → Except ArgumentFault Command
  | .record =>
      match g.value? .mode with
      | some (.mode m) => .ok (.record (g.recordOptions m))
      | _ => .error (.missing recordMode.form)
  | .define =>
      let script? := match g.value? .script with | some (.path p) => some p | _ => none
      .ok (.define ⟨g.textOf .name, script?, g.type?⟩)
  | .replay => .ok (.replay ⟨g.textOf .name, g.textOf .id, g.has .fast⟩)
  | .enable => .ok (.enable (g.textsOf .tasks))
  | .disable => .ok (.disable (g.textsOf .tasks))
  | .delete =>
      let kind? := match g.value? .deleteKind with | some (.deleteKind k) => some k | _ => none
      .ok (.delete kind? (g.textsOf .ids))
  | .list =>
      let kind? := match g.value? .listKind with | some (.listKind k) => some k | _ => none
      .ok (.list kind? (g.textsOf .ids))
  | .level => .ok (.level ((g.value? .level).bind Datum.text?))
  | .version => .ok .version
  | .help => .ok (.help ((g.value? .topic).bind Datum.text?))

end Given

/-- The greatest number of switches for more detail that is told apart. -/
def mostDetail : Nat := 255

/-- The settings that are given before and after the command word. -/
def settingsOf (env : Environment) (before after : Given) : Settings where
  url :=
    ((((after.value? .url).or (before.value? .url)).bind Datum.text?).or env.address?).getD
      defaultAddress
  output :=
    match (after.value? .output).or (before.value? .output) with
    | some (.format f) => f
    | _ => .table
  json := before.has .json || after.has .json
  debug :=
    let level := if after.has .debug then after else before
    min mostDetail (level.values .debug).length

/-- The command line that some words are. -/
def read (env : Environment) (words : List Word) : Except Rejection Invocation := do
  let (before, command?) ← Level.top.readToCommand Level.top.start words
  match command? with
  | none =>
      let _ ← Level.finish env before
      throw .missingCommand
  | some (c, rest) =>
      let after ← (Level.ofCommand c).readWords env rest
      let command ← Level.faulty (after.command c)
      let given ← Level.finish env before
      Level.faulty (Level.top.checkExclusive given)
      return ⟨settingsOf env given after, command⟩

end ControlClient.CommandLine
