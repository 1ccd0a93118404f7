import ControlClient.Proofs.CommandLine.RoundTrip
import ControlClient.Proofs.Session.PlanPrefix
import ControlClient.Proofs.Session.ServerError

/-!
# Words that are no command

A word is looked up as a command in two places. Where the command word should stand it is looked up while
the command line is read, and an unknown one ends the reading. As the topic of `help` it is read like any
other text, and looked up only when the command runs; an unknown one is then a failure of the command,
which is reported in the format that was asked for. Both look into one table, so they know the same words,
and the two reports are made of the same parts.

In between, the reading of the command line reaches its end, where the variable with the address of the
service is read. If that is not text, help on any word is refused, while an unknown command word has ended
the reading before. And only help, a command that was read, has an event for the log.

## Main results

* `read_word`, `read_topic`: a word as a command line of its own, and as the topic of help.
* `unknownWord?_word`, `run_topic`: the runs of both.
* `run_unknown`: where an unknown word is treated alike in both places.
* `run_unknown_apart`: where it is not.
-/

namespace ControlClient

open CommandLine

variable {env : Environment} {files : Files} {service : Service} {w : String}

/-! ## Runs that end with an unknown word -/

/-- The word that a run finds to be no command. -/
def Ending.unknownWord? : Ending → Option String
  | rejected (.unknownCommand name) => some name
  | failed _ (.unknownCommand name) => some name
  | _ => none

/-- A run ends with an unknown word: it names the word and shows the general usage, and does nothing
else. -/
structure Run.EndsUnknown (env : Environment) (w : String) (r : Run) : Prop where
  word : r.ending.unknownWord? = some w
  exitCode : r.ending.exitCode = 1
  exchanges : r.exchanges = []
  output : r.ending.output env = ""
  errorOutput : r.ending.errorOutput env = "Unknown command " ++ w ++ "\n" ++ Help.general env ++ "\n"
  logged : r.logged none = []

/-- The run of a command line that is rejected for a word. -/
theorem endsUnknown_rejected (env : Environment) (w : String) :
    Run.EndsUnknown env w ⟨.rejected (.unknownCommand w), [], [], 0⟩ :=
  ⟨rfl, rfl, rfl, rfl, rfl, rfl⟩

/-- The run of a command that fails for a word. It has an event for the log, but one that is only written
if more detail is asked for. -/
theorem endsUnknown_failed (env : Environment) (w : String) :
    Run.EndsUnknown env w
      ⟨.failed .table (.unknownCommand w), [], [.failed "unknown_command"], 0⟩ where
  word := rfl
  exitCode := rfl
  exchanges := rfl
  output := rfl
  errorOutput := by
    rw [String.append_assoc]
    rfl
  logged := by
    rw [Run.logged, List.filter_eq_nil_iff]
    intro e _
    simp [admits_default e]

/-! ## The two lookups -/

theorem command?_eq_none_iff : Help.command? env w = none ↔ CommandName.ofName? w = none :=
  Option.map_eq_none_iff

/-- An unknown word where the command word should stand ends the reading. -/
theorem read_word (env : Environment) (hPlain : w.toList.head? ≠ some '-')
    (hNone : CommandName.ofName? w = none) :
    CommandLine.read env [Text.Utf8.bytes w] = .error (.unknownCommand w) := by
  have hTop := readToCommand_of_unknown (l := Level.top) (s := Level.top.start) hNone hPlain rfl rfl rfl
    rfl []
  rw [CommandLine.read, hTop]
  rfl

section Accepted

variable {c : CommandName} {words : List Word} {given : Given}

/-- Words that a command accepts are refused for the variable of the environment, if it is not text and they
do not name the address. -/
theorem read_unreadable (hText : env.isText = false)
    (hReads : (Level.ofCommand c).Reads (Level.ofCommand c).positionals
      ((Level.ofCommand c).pieces words) given)
    (hOnce : (Level.ofCommand c).Once given) (hUrl : given.has .url = false) :
    CommandLine.read env (Text.Utf8.bytes c.name :: words) = .error (.argument .notText) := by
  have hTop := readToCommand_of_ofName? (l := Level.top) (s := Level.top.start)
    (CommandName.ofName?_name c) rfl rfl words
  have hSound : (Level.ofCommand c).IsSound := Level.isSound (some c)
  have hNone : ¬env.Serves given := by simp [Environment.Serves, hUrl, hText]
  rw [read_of_readToCommand env hTop,
    Level.readWords_of_reads hSound env hReads hOnce, Environment.check, if_neg hNone]
  rfl

/-- The name of a command may stand alone, as far as its options and places go. -/
theorem reads_nothing (c : CommandName) :
    (Level.ofCommand c).Reads (Level.ofCommand c).positionals ((Level.ofCommand c).pieces []) [] ∧
      (Level.ofCommand c).Once [] :=
  ⟨.nothing _, fun _ _ => Nat.zero_le 1⟩

/-- A word that does not look like an option is accepted as a topic. -/
theorem reads_topic (hPlain : w.toList.head? ≠ some '-') :
    (Level.ofCommand .help).Reads (Level.ofCommand .help).positionals
        ((Level.ofCommand .help).pieces [Text.Utf8.bytes w]) [(.topic, .text w)] ∧
      (Level.ofCommand .help).Once [(.topic, .text w)] := by
  have hForm : ∀ b body, Text.Utf8.bytes w ≠ 45 :: b :: body :=
    fun b body => Level.encode_ne_hyphen hPlain (b :: body)
  have hTopic : Arg.topic.read (Text.Utf8.bytes w) = .ok (.text w) :=
    Arg.IsText.read_bytes (fun _ => rfl) w
  obtain ⟨t, hPlace, hSettle⟩ := Level.readPlace_of_settle (l := helpTable) (s := helpTable.start) rfl
    hTopic (.inr rfl)
  have hWord : helpTable.readWord helpTable.start (Text.Utf8.bytes w) = .ok t := by
    rw [Level.readWord_plain hForm rfl]
    exact hPlace
  refine (Level.settle_iff_reads (Level.isSound (some .help))).1 ⟨t, _, ?_, hSettle, rfl⟩
  show [Text.Utf8.bytes w].foldlM (helpTable.readWord · ·) helpTable.start = .ok t
  rw [List.foldlM_cons, hWord]
  rfl

end Accepted

/-- **Any word that does not look like an option is a topic** that help may be wanted on. -/
theorem read_topic (hText : env.isText = true) (hPlain : w.toList.head? ≠ some '-') :
    CommandLine.read env [Text.Utf8.bytes "help", Text.Utf8.bytes w] =
      .ok ⟨env.settings, .help (some w)⟩ := by
  obtain ⟨hReads, hOnce⟩ := reads_topic hPlain
  have hNone : ∀ o ∈ globalOptions, Given.has [(.topic, .text w)] o.arg = false := by
    have hOther : ∀ o ∈ globalOptions, Arg.topic ≠ o.arg := by decide
    intro o ho
    simpa [Given.has] using hOther o ho
  have hApart : ¬Given.Clashes [(.topic, .text w)] := by
    intro hClashes
    have hOutput := hNone _ (.tail _ (.head _))
    rw [hClashes .output (.head _)] at hOutput
    cases hOutput
  have hWords := (Level.readWords_eq_ok_iff (Level.isSound (some .help))).2
    ⟨hReads, hOnce, .inr hText, hApart⟩
  rw [show Text.Utf8.bytes "help" = Text.Utf8.bytes CommandName.help.name from rfl,
    read_of_readWords hText hWords rfl, settingsOf_eq env hNone]
  rfl

/-- The name of a command, with nothing behind it, is read as far as its command can do without arguments. -/
theorem read_name (hText : env.isText = true) (c : CommandName) :
    CommandLine.read env [Text.Utf8.bytes c.name] =
      (Level.faulty (Given.command [] c)).map fun command => ⟨env.settings, command⟩ := by
  obtain ⟨hReads, hOnce⟩ := reads_nothing c
  have hTop := readToCommand_of_ofName? (l := Level.top) (s := Level.top.start)
    (CommandName.ofName?_name c) rfl rfl []
  have hSound : (Level.ofCommand c).IsSound := Level.isSound (some c)
  have hWords := (Level.readWords_eq_ok_iff hSound).2 ⟨hReads, hOnce, .inr hText, by decide⟩
  cases hCommand : Given.command [] c with
  | ok command =>
      rw [read_of_readWords hText hWords hCommand, settingsOf_eq env fun _ _ => rfl]
      rfl
  | error fault =>
      rw [read_of_readToCommand env hTop, hWords]
      simp only [bind, Except.bind, hCommand]
      rfl

/-! ## The two runs -/

section Runs

variable [DomainMapping] [Text.Measure]

/-- A command that was not told enough is a command. -/
theorem unknownWord?_of_usage {words : List Word} {i : Invocation} {name message : String}
    (hRead : CommandLine.read env words = .ok i) (hNeeds : i.command.needsService = true)
    (hPlan : i.command.plan files = .error (.usage name message)) :
    (run env files service words).ending.unknownWord? = none := by
  obtain ⟨-, hEnding, -⟩ := run_of_read files service hRead
  rw [hEnding, (perform_of_needsService env files hNeeds).2, hPlan]
  cases Base.read i.settings.url <;> rfl

/-- The name of a command, with nothing behind it, is a command. -/
theorem unknownWord?_name (env : Environment) (files : Files) (service : Service) (c : CommandName) :
    (run env files service [Text.Utf8.bytes c.name]).ending.unknownWord? = none := by
  cases hText : env.isText with
  | false =>
      obtain ⟨hReads, hOnce⟩ := reads_nothing c
      rw [run, read_unreadable hText hReads hOnce rfl]
      rfl
  | true =>
      have hRead := read_name hText c
      cases c with
      | record => rw [run, hRead]; rfl
      | version => rw [run, hRead]; rfl
      | help => rw [run, hRead]; rfl
      | _ => exact unknownWord?_of_usage hRead rfl rfl

/-- **A word on its own ends the run exactly if it is no command.** -/
theorem unknownWord?_word (env : Environment) (files : Files) (service : Service)
    (hPlain : w.toList.head? ≠ some '-') :
    (run env files service [Text.Utf8.bytes w]).ending.unknownWord? =
      if Help.command? env w = none then some w else none := by
  by_cases hNone : CommandName.ofName? w = none
  · rw [if_pos (command?_eq_none_iff.2 hNone), run, read_word env hPlain hNone]
    rfl
  · obtain ⟨c, hName⟩ := Option.ne_none_iff_exists'.1 hNone
    rw [if_neg (hNone ∘ command?_eq_none_iff.1), ← CommandName.name_of_ofName? hName]
    exact unknownWord?_name env files service c

/-- The run that wants help on a word prints the page of that name, or fails for want of one. -/
theorem run_topic (hText : env.isText = true) (files : Files) (service : Service)
    (hPlain : w.toList.head? ≠ some '-') :
    run env files service [Text.Utf8.bytes "help", Text.Utf8.bytes w] =
      match Help.command? env w with
      | some page => ⟨.succeeded (page ++ "\n"), [], [], 0⟩
      | none => ⟨.failed .table (.unknownCommand w), [], [.failed "unknown_command"], 0⟩ := by
  rw [run, read_topic hText hPlain]
  unfold Invocation.run Invocation.perform helpOn
  dsimp only
  cases Help.command? env w <;> rfl

/-- **An unknown word is treated alike in both places, if the environment can be read.** A word that does not
look like an option ends its run for being no command if and only if there is no help page of its name, and
the same holds of the word as the topic of help where the variable of the environment is text, if it is set.
Then the runs exit with 1, send nothing, print nothing, and write the same to the error output, but for an
event of help that the log tells if it is asked for more detail. Where the variable is not text, help on any
word is refused for that. -/
theorem run_unknown (env : Environment) (files : Files) (service : Service)
    (hPlain : w.toList.head? ≠ some '-') :
    ((∃ name, (run env files service [Text.Utf8.bytes w]).ending.unknownWord? = some name) ↔
        Help.command? env w = none) ∧
      (Help.command? env w = none →
        (run env files service [Text.Utf8.bytes w]).EndsUnknown env w ∧
          (run env files service [Text.Utf8.bytes w]).events = []) ∧
      (env.isText = true →
        ((∃ name, (run env files service
            [Text.Utf8.bytes "help", Text.Utf8.bytes w]).ending.unknownWord? = some name) ↔
          Help.command? env w = none) ∧
        (Help.command? env w = none →
          (run env files service [Text.Utf8.bytes "help", Text.Utf8.bytes w]).EndsUnknown env w ∧
            (run env files service [Text.Utf8.bytes "help", Text.Utf8.bytes w]).events =
              [.failed "unknown_command"])) ∧
      (env.isText = false →
        run env files service [Text.Utf8.bytes "help", Text.Utf8.bytes w] =
            ⟨.rejected (.argument .notText), [], [], 0⟩ ∧
          (Ending.rejected (.argument .notText)).exitCode = 2) := by
  refine ⟨?_, fun hNone => ?_, fun hText => ?_, fun hText => ⟨?_, rfl⟩⟩
  · rw [unknownWord?_word env files service hPlain]
    split <;> simp [*]
  · rw [run, read_word env hPlain (command?_eq_none_iff.1 hNone)]
    exact ⟨endsUnknown_rejected env w, rfl⟩
  · have hTopic := run_topic hText files service hPlain
    refine ⟨?_, fun hNone => ?_⟩
    · rw [hTopic]
      cases Help.command? env w <;> simp [Ending.unknownWord?]
    · rw [hTopic, hNone]
      exact ⟨endsUnknown_failed env w, rfl⟩
  · obtain ⟨hReads, hOnce⟩ := reads_topic hPlain
    rw [run, show Text.Utf8.bytes "help" = Text.Utf8.bytes CommandName.help.name from rfl,
      read_unreadable hText hReads hOnce rfl]

end Runs

section

attribute [local instance] DomainMapping.asciiOnly Text.Measure.byCharacters

/-- A word that a command is close to: with an address in the environment that is no URL, and with one that
is no text. -/
theorem run_unknown_lists :
    let unusable : Environment := ⟨some (Text.Utf8.bytes "http://")⟩
    let unreadable : Environment := ⟨some [0xff]⟩
    "lists".toList.head? ≠ some '-' ∧ unusable.isText = true ∧ unreadable.isText = false ∧
      Help.command? unusable "lists" = none ∧
      (run unusable (fun _ => .ok (.bytes [])) oneTaskService
        [Text.Utf8.bytes "lists"]).EndsUnknown unusable "lists" ∧
      (run unusable (fun _ => .ok (.bytes [])) oneTaskService
        [Text.Utf8.bytes "help", Text.Utf8.bytes "lists"]).EndsUnknown unusable "lists" ∧
      run unreadable (fun _ => .ok (.bytes [])) oneTaskService
        [Text.Utf8.bytes "help", Text.Utf8.bytes "lists"] =
          ⟨.rejected (.argument .notText), [], [], 0⟩ := by
  intro unusable unreadable
  have hPlain : "lists".toList.head? ≠ some '-' := by decide
  have hNone : Help.command? unusable "lists" = none := by decide
  have hText : unusable.isText = true := by decide +kernel
  have hOther : unreadable.isText = false := by decide +kernel
  obtain ⟨-, hWord, hTopic, -⟩ := run_unknown unusable (fun _ => .ok (.bytes [])) oneTaskService hPlain
  obtain ⟨-, -, -, hRefused⟩ := run_unknown unreadable (fun _ => .ok (.bytes [])) oneTaskService hPlain
  exact ⟨hPlain, hText, hOther, hNone, (hWord hNone).1, ((hTopic hText).2 hNone).1, (hRefused hOther).1⟩

/-- **An unknown word that is not treated alike.** With a variable that is not text it ends its own run as
before, but help on it is refused before the word is looked up. If the log is asked for more detail, help on
it writes a line more to the error output. -/
theorem run_unknown_apart :
    let alone (env : Environment) := run env (fun _ => .ok (.bytes [])) oneTaskService
      [Text.Utf8.bytes "push"]
    let topic (env : Environment) := run env (fun _ => .ok (.bytes [])) oneTaskService
      [Text.Utf8.bytes "help", Text.Utf8.bytes "push"]
    let unreadable : Environment := ⟨some [0xff]⟩
    (Help.command? unreadable "push" = none ∧
        (alone unreadable).ending.unknownWord? = some "push" ∧ (alone unreadable).ending.exitCode = 1 ∧
        (topic unreadable).ending.unknownWord? = none ∧ (topic unreadable).ending.exitCode = 2 ∧
        (alone unreadable).ending.errorOutput unreadable ≠
          (topic unreadable).ending.errorOutput unreadable) ∧
      (alone ⟨none⟩).logged (some "debug") = [] ∧
      (topic ⟨none⟩).logged (some "debug") = [.failed "unknown_command"] := by
  refine ⟨⟨by decide, by decide +kernel, by decide +kernel, by decide +kernel, by decide +kernel, ?_⟩,
    by decide +kernel, by decide +kernel⟩
  decide +kernel

end

end ControlClient
