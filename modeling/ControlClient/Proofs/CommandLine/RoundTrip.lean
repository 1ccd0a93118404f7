import ControlClient.Proofs.CommandLine.Reading
import ControlClient.Proofs.Number.Int64
import ControlClient.Proofs.Span.RoundTrip
import ControlClient.Proofs.Text.Utf8
import Mathlib.Data.List.Perm.Basic

/-!
# Commands read back

A command is written as its command word, its options with their values in the same words, and the
positional words behind a separator (`Command.wordsWith`). Written so, it is read as itself, whatever its
texts hold and in whatever order its options stand: no text is ever looked at as an option, a separator
or a command word.

## Main results

* `command_given`: what a command gives makes the command.
* `read_wordsWith`: a command reads back.
-/

namespace ControlClient

open CommandLine

/-! ## Values -/

namespace CommandLine

theorem readText_bytes (s : String) : readText (Text.Utf8.bytes s) = .ok s := by
  rw [readText, Text.Utf8.text?_bytes]

theorem readChoice_bytes {α : Type} {ofName? : String → Option α} {name : String} {a : α}
    (h : ofName? name = some a) : readChoice ofName? (Text.Utf8.bytes name) = .ok a := by
  rw [readChoice, Text.Utf8.text?_bytes, Option.bind_some, h]

theorem readSpan_text (d : Span) : readSpan (Text.Utf8.bytes d.text) = .ok d := by
  simp only [readSpan, readText_bytes, bind, Except.bind, Span.read_text, pure, Except.pure]

theorem readInt_intText (n : Int64) :
    readInt (Text.Utf8.bytes (Text.intText n.toInt)) = .ok n := by
  simp only [readInt, readText_bytes, bind, Except.bind, Number.readInt64_intText, pure, Except.pure]

namespace Arg

theorem read_span (d : Span) : duration.read (Text.Utf8.bytes d.text) = .ok (.span d) := by
  show (readSpan _).map Datum.span = _
  rw [readSpan_text]
  rfl

theorem read_int (n : Int64) : count.read (Text.Utf8.bytes (Text.intText n.toInt)) = .ok (.int n) := by
  show (readInt _).map Datum.int = _
  rw [readInt_intText]
  rfl

theorem read_path {path : Word} (h : path ≠ []) : script.read path = .ok (.path path) := by
  show (readPath path).map Datum.path = _
  rw [readPath, if_neg (by simpa using h)]
  rfl

theorem read_taskType (t : TaskType) : type.read (Text.Utf8.bytes t.name) = .ok (.type t) := by
  have hChoice : TaskType.ofChoice? t.name = some t := by
    rw [TaskType.ofChoice?_eq_ofName?, TaskType.ofName?_name]
  show (readChoice TaskType.ofChoice? _).map Datum.type = _
  rw [readChoice_bytes hChoice]
  rfl

theorem read_recordMode (m : RecordMode) : mode.read (Text.Utf8.bytes m.name) = .ok (.mode m) := by
  show (readChoice RecordMode.ofName? _).map Datum.mode = _
  rw [readChoice_bytes (a := m) (by cases m <;> decide)]
  rfl

theorem read_deleteKind (k : DeleteKind) : deleteKind.read (Text.Utf8.bytes k.name) = .ok (.deleteKind k) := by
  show (readChoice DeleteKind.ofName? _).map Datum.deleteKind = _
  rw [readChoice_bytes (a := k) (by cases k <;> decide)]
  rfl

theorem read_listKind (k : ListKind) : listKind.read (Text.Utf8.bytes k.name) = .ok (.listKind k) := by
  show (readChoice ListKind.ofName? _).map Datum.listKind = _
  rw [readChoice_bytes (a := k) (by cases k <;> decide)]
  rfl

end Arg

/-- An argument takes any text. -/
def Arg.IsText (a : Arg) : Prop := ∀ word, a.read word = (readText word).map .text

theorem Arg.IsText.read_bytes {a : Arg} (h : a.IsText) (s : String) :
    a.read (Text.Utf8.bytes s) = .ok (.text s) := by
  rw [h, readText_bytes]
  rfl

theorem Arg.IsText.mapM_read {a : Arg} (h : a.IsText) (names : List String) :
    (names.map Text.Utf8.bytes).mapM a.read = .ok (names.map .text) := by
  induction names with
  | nil => rfl
  | cons name rest ih =>
      rw [List.map_cons, List.mapM_cons, h.read_bytes, ih]
      rfl

end CommandLine

/-! ## What a command gives -/

namespace Command

/-- What the words of the options give. -/
def optionsGiven : Command → Given
  | record o =>
      Given.unlessDefault (o.duration = Given.defaultSpan) .duration (.span o.duration)
      ++ Given.ofText .name o.name
      ++ Given.ofText .start o.start
      ++ Given.unlessDefault (o.count = 1) .count (.int o.count)
      ++ Given.ofText .address o.address
      ++ Given.ofText .query o.query
      ++ Given.ofOption .type .type o.type?
  | define o =>
      Given.ofText .name o.name
      ++ Given.ofOption .script .path o.script?
      ++ Given.ofOption .type .type o.type?
  | replay o =>
      Given.ofText .name o.name
      ++ Given.ofText .id o.id
      ++ Given.unlessDefault (o.fast = false) .fast .on
  | _ => []

/-- What the positional words give. -/
def placesGiven : Command → Given
  | record o => [(.mode, .mode o.mode)]
  | enable names | disable names => names.map fun name => (.tasks, .text name)
  | delete kind? ids =>
      Given.ofOption .deleteKind .deleteKind kind? ++ ids.map fun id => (.ids, .text id)
  | list kind? ids => Given.ofOption .listKind .listKind kind? ++ ids.map fun id => (.ids, .text id)
  | level level? => Given.ofOption .level .text level?
  | help topic? => Given.ofOption .topic .text topic?
  | _ => []

/-- The options that are given are options of the command's level, in order. -/
theorem args_optionsGiven_sublist (c : Command) :
    (c.optionsGiven.map (·.1)).Sublist ((Level.ofCommand c.name).own.map (·.arg)) := by
  cases c with
  | record o =>
      simp only [optionsGiven, List.map_append]
      exact ((((((Given.args_unlessDefault_sublist ..).append
        (Given.args_unlessDefault_sublist ..)).append
        (Given.args_unlessDefault_sublist ..)).append
        (Given.args_unlessDefault_sublist ..)).append
        (Given.args_unlessDefault_sublist ..)).append
        (Given.args_unlessDefault_sublist ..)).append (Given.args_ofOption_sublist ..)
  | define o =>
      simp only [optionsGiven, List.map_append]
      exact ((Given.args_unlessDefault_sublist ..).append
        (Given.args_ofOption_sublist ..)).append (Given.args_ofOption_sublist ..)
  | replay o =>
      simp only [optionsGiven, List.map_append]
      exact ((Given.args_unlessDefault_sublist ..).append
        (Given.args_unlessDefault_sublist ..)).append (Given.args_unlessDefault_sublist ..)
  | _ => exact List.nil_sublist _

/-- The arguments of a level are told apart. -/
private theorem args_nodup (c : CommandName) :
    ((Level.ofCommand c).own.map (·.arg) ++ (Level.ofCommand c).positionals.map (·.arg)
      ++ globalOptions.map (·.arg)).Nodup := by
  cases c <;> decide

/-! ## Words of options -/

section Words

variable {l : Level} (long : String) (a : Arg)

private theorem says_unlessDefault (isDefault : Prop) [Decidable isDefault] {word : Word} {d : Datum}
    (hOption : ∃ o, l.long? long = some o ∧ o.arg = a ∧ o.valueName?.isSome) (hRead : a.read word = .ok d) :
    List.Forall₂ l.Says (if isDefault then [] else [optionWord long word])
      (Given.unlessDefault isDefault a d) := by
  unfold Given.unlessDefault
  split
  · exact .nil
  · exact .cons (.value hOption hRead) .nil

private theorem says_textOption
    (hOption : ∃ o, l.long? long = some o ∧ o.arg = a ∧ o.valueName?.isSome) (hText : a.IsText)
    (s : String) : List.Forall₂ l.Says (textOption long s) (Given.ofText a s) :=
  says_unlessDefault long a (s = "") hOption (hText.read_bytes s)

private theorem says_ofOption {α : Type} (datum : α → Datum) (word : α → Word)
    (hOption : ∃ o, l.long? long = some o ∧ o.arg = a ∧ o.valueName?.isSome) (value? : Option α)
    (hRead : ∀ v ∈ value?, a.read (word v) = .ok (datum v)) :
    List.Forall₂ l.Says (value?.map fun v => optionWord long (word v)).toList
      (Given.ofOption a datum value?) := by
  cases value? with
  | none => exact .nil
  | some v => exact .cons (.value hOption (hRead v rfl)) .nil

private theorem says_typeOption (hOption : ∃ o, l.long? "type" = some o ∧ o.arg = .type ∧ o.valueName?.isSome)
    (type? : Option TaskType) :
    List.Forall₂ l.Says (typeOption type?) (Given.ofOption .type .type type?) :=
  says_ofOption "type" .type .type _ hOption type? fun t _ => Arg.read_taskType t

/-- **The words of the options say what they give.** -/
theorem says_optionWords {c : Command} (h : c.IsWritable) :
    List.Forall₂ (Level.ofCommand c.name).Says c.optionWords c.optionsGiven := by
  cases c with
  | record o =>
      have hDuration := says_unlessDefault (l := Level.ofCommand .record) "duration" .duration
        (o.duration = Given.defaultSpan) ⟨_, rfl, rfl, rfl⟩ (Arg.read_span o.duration)
      have hName := says_textOption (l := Level.ofCommand .record) "name" .name
        ⟨_, rfl, rfl, rfl⟩ (fun _ => rfl) o.name
      have hStart := says_textOption (l := Level.ofCommand .record) "start" .start
        ⟨_, rfl, rfl, rfl⟩ (fun _ => rfl) o.start
      have hCount := says_unlessDefault (l := Level.ofCommand .record) "num" .count
        (o.count = 1) ⟨_, rfl, rfl, rfl⟩ (Arg.read_int o.count)
      have hAddress := says_textOption (l := Level.ofCommand .record) "addr" .address
        ⟨_, rfl, rfl, rfl⟩ (fun _ => rfl) o.address
      have hQuery := says_textOption (l := Level.ofCommand .record) "query" .query
        ⟨_, rfl, rfl, rfl⟩ (fun _ => rfl) o.query
      have hType := says_typeOption (l := Level.ofCommand .record) ⟨_, rfl, rfl, rfl⟩ o.type?
      exact List.rel_append (List.rel_append (List.rel_append (List.rel_append (List.rel_append
        (List.rel_append hDuration hName) hStart) hCount) hAddress) hQuery) hType
  | define o =>
      have hName := says_textOption (l := Level.ofCommand .define) "name" .name
        ⟨_, rfl, rfl, rfl⟩ (fun _ => rfl) o.name
      have hScript := says_ofOption (l := Level.ofCommand .define) "tick" .script .path id
        ⟨_, rfl, rfl, rfl⟩ o.script? fun path hPath => Arg.read_path (by
          rintro rfl
          exact h hPath)
      have hType := says_typeOption (l := Level.ofCommand .define) ⟨_, rfl, rfl, rfl⟩ o.type?
      exact List.rel_append (List.rel_append hName hScript) hType
  | replay o =>
      have hName := says_textOption (l := Level.ofCommand .replay) "name" .name
        ⟨_, rfl, rfl, rfl⟩ (fun _ => rfl) o.name
      have hId := says_textOption (l := Level.ofCommand .replay) "id" .id
        ⟨_, rfl, rfl, rfl⟩ (fun _ => rfl) o.id
      have hFast : List.Forall₂ (Level.ofCommand .replay).Says
          (if o.fast then [switchWord "fast"] else [])
          (Given.unlessDefault (o.fast = false) .fast .on) := by
        cases o.fast with
        | false => exact .nil
        | true => exact .cons (.switch ⟨_, rfl, rfl, rfl⟩ (by decide)) .nil
      exact List.rel_append (List.rel_append hName hId) hFast
  | _ => exact .nil

end Words

/-! ## Positional words -/

private theorem fills_texts {p : PositionalSpec} (hMany : p.many = true) (hText : p.arg.IsText)
    (rest : List PositionalSpec) (names : List String) :
    Level.Fills (p :: rest) (names.map Text.Utf8.bytes) (names.map fun name => (p.arg, .text name)) := by
  by_cases hNone : names = []
  · subst hNone
    exact .nothing _
  · have hFills : Level.Fills (p :: rest) (names.map Text.Utf8.bytes) _ :=
      .many hMany (by simpa using hNone) (hText.mapM_read names)
    rwa [List.map_map] at hFills

/-- **The positional words fill the places of the command's level.** -/
theorem fills_placesGiven {c : Command} (h : c.IsWritable) :
    Level.Fills (Level.ofCommand c.name).positionals c.positionalWords c.placesGiven := by
  cases c with
  | record o => exact .one rfl (Arg.read_recordMode o.mode) (.nothing _)
  | enable names => exact fills_texts rfl (fun _ => rfl) [] names
  | disable names => exact fills_texts rfl (fun _ => rfl) [] names
  | delete kind? ids =>
      cases kind? with
      | none =>
          obtain rfl : ids = [] := h.resolve_right (by simp)
          exact .nothing _
      | some kind => exact .one rfl (Arg.read_deleteKind kind) (fills_texts rfl (fun _ => rfl) [] ids)
  | list kind? ids =>
      cases kind? with
      | none =>
          obtain rfl : ids = [] := h.resolve_right (by simp)
          exact .nothing _
      | some kind => exact .one rfl (Arg.read_listKind kind) (fills_texts rfl (fun _ => rfl) [] ids)
  | level level? =>
      cases level? with
      | none => exact .nothing _
      | some level => exact .one rfl (Arg.IsText.read_bytes (a := .level) (fun _ => rfl) level) (.nothing _)
  | help topic? =>
      cases topic? with
      | none => exact .nothing _
      | some topic => exact .one rfl (Arg.IsText.read_bytes (a := .topic) (fun _ => rfl) topic) (.nothing _)
  | _ => exact .nothing _

/-! ## Commands -/

section Values

variable {g : Given} {a : Arg}

/-- What was given as text is the text, or the empty text by default. -/
private theorem textOf_eq {s : String} (h : g.values a = if s ≠ "" then [.text s] else []) :
    g.textOf a = s := by
  rw [Given.textOf, Given.value?_eq_head?, h]
  by_cases hEmpty : s = ""
  · rw [hEmpty]
    rfl
  · rw [if_pos hEmpty]
    rfl

private theorem textsOf_eq {names : List String} (h : g.values a = names.map .text) :
    g.textsOf a = names := by
  rw [Given.textsOf, h]
  clear h
  induction names with
  | nil => rfl
  | cons name rest ih => exact congrArg (name :: ·) ih

private theorem type?_eq {type? : Option TaskType}
    (h : g.values .type = (type?.map Datum.type).toList) : g.type? = type? := by
  rw [Given.type?, Given.value?_eq_head?, h]
  cases type? <;> rfl

end Values

private theorem recordOptions_given (o : RecordOptions) :
    Given.recordOptions ((record o).optionsGiven ++ (record o).placesGiven) o.mode = o := by
  obtain ⟨mode, duration, name, start, count, address, query, type?⟩ := o
  generalize hGiven : optionsGiven _ ++ placesGiven _ = g
  have hName : g.textOf .name = name := textOf_eq (by simp [← hGiven, optionsGiven, placesGiven])
  have hStart : g.textOf .start = start := textOf_eq (by simp [← hGiven, optionsGiven, placesGiven])
  have hAddress : g.textOf .address = address :=
    textOf_eq (by simp [← hGiven, optionsGiven, placesGiven])
  have hQuery : g.textOf .query = query := textOf_eq (by simp [← hGiven, optionsGiven, placesGiven])
  have hType : g.type? = type? := type?_eq (by simp [← hGiven, optionsGiven, placesGiven])
  rw [Given.recordOptions, hName, hStart, hAddress, hQuery, hType]
  congr 1
  · by_cases hDefault : duration = Given.defaultSpan <;>
      simp [← hGiven, optionsGiven, placesGiven, Given.value?_eq_head?, hDefault]
  · by_cases hDefault : count = 1 <;>
      simp [← hGiven, optionsGiven, placesGiven, Given.value?_eq_head?, hDefault]

/-- **What a command gives makes the command.** -/
theorem command_given (c : Command) :
    Given.command (c.optionsGiven ++ c.placesGiven) c.name = .ok c := by
  cases c with
  | record o =>
      have hMode : Given.value? ((record o).optionsGiven ++ (record o).placesGiven) .mode =
          some (.mode o.mode) := by
        simp [optionsGiven, placesGiven, Given.value?_eq_head?]
      show Given.command _ .record = _
      simp only [Given.command, hMode, recordOptions_given]
  | define o =>
      obtain ⟨name, script?, type?⟩ := o
      generalize hGiven : optionsGiven _ ++ placesGiven _ = g
      have hName : g.textOf .name = name :=
        textOf_eq (by simp [← hGiven, optionsGiven, placesGiven])
      have hType : g.type? = type? :=
        type?_eq (by simp [← hGiven, optionsGiven, placesGiven])
      have hScript : g.value? .script = script?.map Datum.path := by
        simp [← hGiven, optionsGiven, placesGiven, Given.value?_eq_head?]
      show Given.command _ .define = _
      simp only [Given.command, hName, hType, hScript]
      cases script? <;> rfl
  | replay o =>
      obtain ⟨name, id, fast⟩ := o
      generalize hGiven : optionsGiven _ ++ placesGiven _ = g
      have hName : g.textOf .name = name := textOf_eq (by simp [← hGiven, optionsGiven, placesGiven])
      have hId : g.textOf .id = id := textOf_eq (by simp [← hGiven, optionsGiven, placesGiven])
      have hFast : g.has .fast = fast := by
        cases fast <;> simp [← hGiven, optionsGiven, placesGiven, Given.has_eq_isEmpty]
      show Given.command _ .replay = _
      simp only [Given.command, hName, hId, hFast]
  | enable names => exact congrArg (Except.ok ∘ Command.enable) (textsOf_eq (Given.values_texts _))
  | disable names => exact congrArg (Except.ok ∘ Command.disable) (textsOf_eq (Given.values_texts _))
  | delete kind? ids =>
      generalize hGiven : optionsGiven _ ++ placesGiven _ = g
      have hIds : g.textsOf .ids = ids := textsOf_eq (by simp [← hGiven, optionsGiven, placesGiven])
      have hKind : g.value? .deleteKind = kind?.map Datum.deleteKind := by
        simp [← hGiven, optionsGiven, placesGiven, Given.value?_eq_head?]
      show Given.command _ .delete = _
      simp only [Given.command, hIds, hKind]
      cases kind? <;> rfl
  | list kind? ids =>
      generalize hGiven : optionsGiven _ ++ placesGiven _ = g
      have hIds : g.textsOf .ids = ids := textsOf_eq (by simp [← hGiven, optionsGiven, placesGiven])
      have hKind : g.value? .listKind = kind?.map Datum.listKind := by
        simp [← hGiven, optionsGiven, placesGiven, Given.value?_eq_head?]
      show Given.command _ .list = _
      simp only [Given.command, hIds, hKind]
      cases kind? <;> rfl
  | level level? => cases level? <;> rfl
  | version => rfl
  | help topic? => cases topic? <;> rfl

end Command

/-! ## Command lines -/

namespace CommandLine

/-- The settings of a command line that names none. -/
def Environment.settings (env : Environment) : Settings where
  url := env.address?.getD defaultAddress
  output := .table
  json := false
  debug := 0

/-- A command line without global options has the settings of its environment. -/
theorem settingsOf_eq (env : Environment) {given : Given}
    (hPlain : ∀ o ∈ globalOptions, given.has o.arg = false) :
    settingsOf env [] given = env.settings := by
  have hNone : ∀ o ∈ globalOptions, given.values o.arg = [] := by
    intro o ho
    simpa [Given.has_eq_isEmpty] using hPlain o ho
  have hUrl : given.values .url = [] := hNone _ (.head _)
  have hOutput : given.values .output = [] := hNone _ (.tail _ (.head _))
  have hJson : given.values .json = [] := hNone _ (.tail _ (.tail _ (.head _)))
  have hDebug : given.values .debug = [] := hNone _ (.tail _ (.tail _ (.tail _ (.head _))))
  simp [settingsOf, Environment.settings, Given.value?_eq_head?, Given.has_eq_isEmpty, hUrl, hOutput,
    hJson, hDebug]

/-- A command line that starts with its command word is read by the table of the command. -/
theorem read_of_readWords {env : Environment} (hText : env.isText = true) {c : CommandName}
    {words : List Word} {given : Given} {command : Command}
    (hWords : (Level.ofCommand c).readWords env words = .ok given)
    (hCommand : given.command c = .ok command) :
    read env (Text.Utf8.bytes c.name :: words) = .ok ⟨settingsOf env [] given, command⟩ := by
  have hTop := readToCommand_of_ofName? (l := Level.top) (s := Level.top.start)
    (CommandName.ofName?_name c) rfl rfl words
  have hFinish : Level.finish env Level.top.start = .ok [] := by
    rw [Level.finish_of_settle (u := Level.top.start) rfl, Environment.check_eq_ok_iff.2 (.inr hText)]
    rfl
  rw [read_of_readToCommand env hTop]
  simp only [bind, Except.bind, hWords, Level.faulty, Except.mapError, hCommand, hFinish]
  rfl

end CommandLine

namespace Command

/-- **A command reads back**, whatever its texts hold and in whatever order its options stand. -/
theorem read_wordsWith {env : Environment} (hText : env.isText = true) {c : Command} (h : c.IsWritable)
    {optionWords : List Word} (hOrder : optionWords.Perm c.optionWords) :
    CommandLine.read env (c.wordsWith optionWords) = .ok ⟨env.settings, c⟩ := by
  obtain ⟨given, hSays, hPerm⟩ := List.perm_comp_forall₂ hOrder (says_optionWords h)
  have hFills := fills_placesGiven h
  obtain ⟨hLevel, -, hGlobal⟩ := List.nodup_append.1 (args_nodup c.name)
  have hOwn := (List.nodup_append.1 hLevel).1
  have hArgs := hPerm.map (·.1)
  have hOnce : (given.map (·.1)).Nodup :=
    hArgs.nodup_iff.2 (hOwn.sublist (args_optionsGiven_sublist c))
  have hMem : ∀ a ∈ given.map (·.1), a ∈ (Level.ofCommand c.name).own.map (·.arg) :=
    fun a ha => (args_optionsGiven_sublist c).subset (hArgs.subset ha)
  have hPlain : ∀ o ∈ globalOptions, Given.has (given ++ c.placesGiven) o.arg = false := by
    intro o ho
    rw [Given.has_eq_false_iff, List.map_append]
    intro hIn
    refine hGlobal o.arg (List.mem_append.2 ?_) o.arg (List.mem_map_of_mem ho) rfl
    rcases List.mem_append.1 hIn with hOption | hPlace
    · exact .inl (hMem _ hOption)
    · obtain ⟨e, he, hEq⟩ := List.mem_map.1 hPlace
      exact .inr (hEq ▸ hFills.arg_mem e he)
  have hTogether : ¬Given.Clashes (given ++ c.placesGiven) := by
    intro hClashes
    have hNone := hPlain _ (.tail _ (.head _))
    rw [hClashes .output (.head _)] at hNone
    cases hNone
  have hWords :=
    Level.readWords_of_written (Level.isSound (some c.name)) hText hSays hOnce hFills hTogether
  have hCommand : Given.command (given ++ c.placesGiven) c.name = .ok c := by
    rw [← command_given c]
    apply Given.command_congr
    intro a _
    rw [Given.values_append, Given.values_append, Given.values_eq_of_perm hPerm hOnce]
  rw [wordsWith, List.cons_append, read_of_readWords hText hWords hCommand, settingsOf_eq env hPlain]

/-- Options in reverse order, with texts that look like an option, a separator and a command word. -/
theorem read_reversed_options :
    let options : RecordOptions :=
      ⟨.query, ⟨90 * nanosPerSecond, by decide⟩, "--", "record", -5, "=", "-x=--y \u00e9", some .batch⟩
    Environment.isText ⟨none⟩ = true ∧ (record options).IsWritable ∧
      (record options).optionWords.reverse.Perm (record options).optionWords ∧
      (record options).wordsWith (record options).optionWords.reverse =
        ["record", "--type=batcher", "--query=-x=--y \u00e9", "--addr==", "--num=-5", "--start=record",
          "--name=--", "--duration=1m30s", "--", "query"].map Text.Utf8.bytes ∧
      CommandLine.read ⟨none⟩ (["record", "--type=batcher", "--query=-x=--y \u00e9", "--addr==",
          "--num=-5", "--start=record", "--name=--", "--duration=1m30s", "--", "query"].map
            Text.Utf8.bytes) =
        .ok ⟨⟨"http://localhost:9092", .table, false, 0⟩, record options⟩ := by
  intro options
  have hWords : (record options).wordsWith (record options).optionWords.reverse =
      ["record", "--type=batcher", "--query=-x=--y \u00e9", "--addr==", "--num=-5", "--start=record",
        "--name=--", "--duration=1m30s", "--", "query"].map Text.Utf8.bytes := by decide +kernel
  have hOrder := List.reverse_perm (record options).optionWords
  have hWritable : (record options).IsWritable := trivial
  have hText : Environment.isText ⟨none⟩ = true := rfl
  refine ⟨hText, hWritable, hOrder, hWords, ?_⟩
  rw [← hWords]
  exact read_wordsWith hText hWritable hOrder

end Command

end ControlClient
