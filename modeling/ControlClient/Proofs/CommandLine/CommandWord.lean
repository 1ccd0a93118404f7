import ControlClient.Proofs.CommandLine.Words

/-!
# The command word

In front of the command word stand options that all commands share. However they are spelled, the word
behind them is looked at as a command word, also if a value in front of it looks like one; and it alone
decides whether a command line is rejected as having no command. Behind it, everything that can go wrong
is a request for help or a fault of an argument.

What is read of the options is at every point either settled or pending, and settling it gives what the
words say: this is the invariant of `foldlM_of_spells` for the words of one option, and of
`readToCommand_of_gives` for all of them.

## Main results

* `readToCommand_of_gives`: options in front of the command word are read up to it.
* `sparesCommand_readWords`: how the words behind the command word can be rejected.
* `read_commandWord`: which command lines have no command.
-/

namespace ControlClient.CommandLine

/-! ## Rejections that spare the command word -/

/-- If something is rejected, then not for want of a command. -/
def SparesCommand {α : Type} (x : Except Rejection α) : Prop := ∀ r, x = .error r → r.exitCode ≠ 1

namespace SparesCommand

variable {α β : Type}

theorem ok (a : α) : SparesCommand (.ok a) := by
  intro r h
  cases h

theorem error {r : Rejection} (h : r.exitCode ≠ 1) : SparesCommand (.error r : Except Rejection α) := by
  intro r' hr
  cases hr
  exact h

theorem faulty (x : Except ArgumentFault α) : SparesCommand (Level.faulty x) := by
  cases x with
  | ok a => exact ok a
  | error fault => exact error fault.exitCode_ne_one

theorem bind {x : Except Rejection α} {f : α → Except Rejection β} (hx : SparesCommand x)
    (hf : ∀ a, SparesCommand (f a)) : SparesCommand (x >>= f) := by
  cases x with
  | ok a => exact hf a
  | error r => exact error (hx r rfl)

theorem foldlM {f : β → α → Except Rejection β} (h : ∀ b a, SparesCommand (f b a)) (as : List α)
    (b : β) : SparesCommand (as.foldlM f b) := by
  induction as generalizing b with
  | nil => exact ok b
  | cons a as ih => exact bind (h b a) ih

end SparesCommand

namespace Level

/-! ## Options in any spelling -/

/-- A letter that is a switch gives its argument. -/
def Letter (l : Level) (c : Char) (entry : Arg × Datum) : Prop :=
  ∃ o, l.short? c = some o ∧ o.arg ≠ .help ∧ entry = (o.arg, .on)

/-- The words of one option, in any of its spellings, and what they give. -/
inductive Spells (l : Level) : List Word → Given → Prop where
  /-- One word: a switch, or an option with its value. -/
  | word {word : Word} {entry : Arg × Datum} (hSays : l.Says word entry) : Spells l [word] [entry]
  /-- An option and its value in a word of its own, which must not look like an option. -/
  | apart {long : String} {arg : Arg} {value : Word} {d : Datum}
      (hOption : ∃ o, l.long? long = some o ∧ o.arg = arg ∧ o.valueName?.isSome)
      (hRead : arg.read value = .ok d) (hValue : ∀ b body, value ≠ 45 :: b :: body) :
      Spells l [switchWord long, value] [(arg, d)]
  /-- Switches by their letters, in one word behind one hyphen. -/
  | letters {cs : List Char} {entries : Given} (hSome : cs ≠ [])
      (hLetters : List.Forall₂ l.Letter cs entries) : Spells l [45 :: Text.Utf8.encode cs] entries

/-- Words of options, in any of their spellings, and what they give: those of one option after the other. -/
def Gives (l : Level) (words : List Word) (given : Given) : Prop :=
  ∃ ps gs, List.Forall₂ l.Spells ps gs ∧ words = ps.flatten ∧ given = gs.flatten

/-- No argument is given twice but one that may be given again. -/
def Once (l : Level) (given : Given) : Prop :=
  ∀ a, ¬l.Repeats a → (given.values a).length ≤ 1

variable {l : Level} {given : Given} {places : List PositionalSpec} {s : Progress}

/-- What is given once was not given before. -/
theorem Once.fresh {entry : Arg × Datum} {others : Given} (h : l.Once (given ++ entry :: others)) :
    l.Repeats entry.1 ∨ given.has entry.1 = false := by
  by_cases hRepeats : l.Repeats entry.1
  · exact .inl hRepeats
  · right
    have hLength := h entry.1 hRepeats
    have hOwn : Given.values (entry :: others) entry.1 = entry.2 :: Given.values others entry.1 := by
      simp [Given.values]
    rw [Given.values_append, hOwn, List.length_append, List.length_cons] at hLength
    have hNone : given.values entry.1 = [] := List.length_eq_zero_iff.1 (by omega)
    rw [Given.has_eq_isEmpty, hNone]
    rfl

theorem Once.append_left {others : Given} (h : l.Once (given ++ others)) : l.Once given := by
  intro a hRepeats
  have hLength := h a hRepeats
  rw [Given.values_append, List.length_append] at hLength
  omega

/-- A word that starts with a hyphen is no command word. -/
theorem commandOf?_hyphen (body : Word) : commandOf? (45 :: body) = none := by
  have hNames : ∀ c : CommandName, c.name.toList.head? ≠ some '-' := by
    intro c
    cases c <;> decide
  cases hCommand : commandOf? (45 :: body) with
  | none => rfl
  | some c =>
      obtain ⟨text, hText, hName⟩ := Option.bind_eq_some_iff.1 hCommand
      obtain ⟨cs, hDecode, rfl⟩ := Option.map_eq_some_iff.1 hText
      have hFirst : Text.Utf8.step none 45 = .ends '-' := by decide
      rw [Text.Utf8.decode?, Text.Utf8.decodeFrom, hFirst] at hDecode
      obtain ⟨others, -, rfl⟩ := Option.map_eq_some_iff.1 hDecode
      refine absurd ?_ (hNames c)
      rw [CommandName.name_of_ofName? hName, String.toList_ofList, List.head?_cons]

/-- Reading goes on behind a word that is no command word. -/
theorem readToCommand_cons {word : Word} (h : (s.trailing || s.awaits) = true ∨ commandOf? word = none)
    (rest : List Word) :
    l.readToCommand s (word :: rest) = l.readWord s word >>= (l.readToCommand · rest) := by
  have hNone : (if s.trailing || s.awaits then none else commandOf? word) = none := by
    rcases h with hTaken | hOther
    · rw [if_pos hTaken]
    · rw [hOther, ite_self]
  rw [readToCommand, hNone]

/-- The hyphen is no letter of a level that has none for it. -/
theorem Letter.ne_hyphen {c : Char} {entry : Arg × Datum} (hHyphen : l.short? '-' = none)
    (h : l.Letter c entry) : c ≠ '-' := by
  rintro rfl
  obtain ⟨o, hShort, -⟩ := h
  rw [hHyphen] at hShort
  cases hShort

theorem readShort_nil (l : Level) (s : Progress) : l.readShort s (Text.Utf8.encode []) = .ok s := rfl

/-- Letters are read one after the other. -/
theorem readShort_cons {c : Char} {o : OptionSpec} (h : l.short? c = some o) (cs : List Char) :
    l.readShort s (Text.Utf8.encode (c :: cs)) =
      l.readSwitch s o .summary >>= (l.readShort · (Text.Utf8.encode cs)) := by
  simp only [readShort, Text.Utf8.leading_encode, List.foldlM_cons, h, bind_assoc]

/-- **The letters of switches give their arguments.** -/
theorem readShort_of_letters {cs : List Char} {entries : Given} (h : List.Forall₂ l.Letter cs entries)
    (hSettle : s.settle = .ok ⟨given, none, places, false⟩) (hOnce : l.Once (given ++ entries)) :
    ∃ t, l.readShort s (Text.Utf8.encode cs) = .ok t ∧
      t.settle = .ok ⟨given ++ entries, none, places, false⟩ := by
  induction h generalizing given s with
  | nil => exact ⟨s, readShort_nil l s, by rw [List.append_nil, hSettle]⟩
  | @cons c entry cs entries hLetter _ ih =>
      obtain ⟨o, hShort, hHelp, rfl⟩ := hLetter
      have hStep := readSwitch_of_settle hSettle (List.mem_of_find?_eq_some hShort) hHelp hOnce.fresh
        .summary
      have hLater : l.Once ((given ++ [(o.arg, .on)]) ++ entries) := by rwa [List.append_assoc]
      obtain ⟨t, hRest, hEnd⟩ := ih (s := ⟨given ++ [(o.arg, .on)], none, places, false⟩) rfl hLater
      rw [List.append_assoc] at hEnd
      refine ⟨t, ?_, hEnd⟩
      rw [readShort_cons hShort, hStep]
      exact hRest

/-- The bytes of a text start with a hyphen only if the text does. -/
theorem encode_ne_hyphen {cs : List Char} (h : cs.head? ≠ some '-') (body : Word) :
    Text.Utf8.encode cs ≠ 45 :: body := by
  intro hBytes
  cases cs with
  | nil => cases hBytes
  | cons c others =>
      have hCode := Text.Utf8.toNat_of_head?_encode (b := 45) (by rw [hBytes]; rfl) (by decide)
      exact h (by rw [List.head?_cons, ← Char.ofNat_toNat c, hCode]; rfl)

/-- A word of letters starts with one hyphen. -/
theorem exists_encode_cons {c : Char} (h : c ≠ '-') (cs : List Char) :
    ∃ b body, Text.Utf8.encode (c :: cs) = b :: body ∧ b ≠ 45 := by
  cases hBytes : Text.Utf8.encode (c :: cs) with
  | nil =>
      have hLeading := Text.Utf8.leading_encode (c :: cs)
      rw [hBytes] at hLeading
      cases hLeading
  | cons b body =>
      refine ⟨b, body, rfl, ?_⟩
      rintro rfl
      exact encode_ne_hyphen (by simpa using h) body hBytes

/-- A word of letters behind one hyphen. -/
private theorem readWord_short {c : Char} (hTrailing : s.trailing = false) (h : c ≠ '-')
    (cs : List Char) :
    l.readWord s (45 :: Text.Utf8.encode (c :: cs)) = l.readShort s (Text.Utf8.encode (c :: cs)) := by
  obtain ⟨b, body, hBytes, hOther⟩ := exists_encode_cons h cs
  rw [hBytes]
  simp [readWord, hTrailing, hOther]

/-- A word that does not look like an option is a value if an option awaits one, and else positional. -/
theorem readWord_plain {word : Word} (hPlain : ∀ b body, word ≠ 45 :: b :: body)
    (hTrailing : s.trailing = false) :
    l.readWord s word = if s.awaits then .ok (s.push word) else l.readPlace s word := by
  unfold readWord
  rw [hTrailing, if_neg Bool.false_ne_true]
  split
  · exact absurd rfl (hPlain _ _)
  · exact absurd rfl (hPlain _ _)
  · exact absurd rfl (hPlain _ _)
  · rfl

/-- **The words of an option give what they say**, behind what was pending, and no word among them is
taken for a command word. -/
theorem foldlM_of_spells (hNames : l.NamesOptions) (hHyphen : l.short? '-' = none) {piece : List Word}
    {entries : Given} (h : l.Spells piece entries)
    (hSettle : s.settle = .ok ⟨given, none, places, false⟩) (hOnce : l.Once (given ++ entries)) :
    ∃ t, piece.foldlM (l.readWord · ·) s = .ok t ∧
      t.settle = .ok ⟨given ++ entries, none, places, false⟩ ∧
      ∀ rest, l.readToCommand s (piece ++ rest) = l.readToCommand t rest := by
  cases h with
  | @word word entry hSays =>
      have hRead := readWord_of_says hSettle hNames hSays hOnce.fresh
      have hOther : commandOf? word = none := by
        cases hSays with
        | value => rw [optionWord_eq, commandOf?_hyphen]
        | switch => rw [switchWord_eq, commandOf?_hyphen]
      refine ⟨_, by rw [List.foldlM_cons, hRead]; rfl, rfl, fun rest => ?_⟩
      rw [List.singleton_append, readToCommand_cons (.inr hOther), hRead]
      rfl
  | @apart long arg value d hOption hRead hValue =>
      obtain ⟨o, hLong, rfl, hTakes⟩ := hOption
      have hNew : given.has o.arg = false := by
        refine hOnce.fresh.resolve_left fun hRepeats => ?_
        rw [(hRepeats o (List.mem_of_find?_eq_some hLong) rfl).2] at hTakes
        cases hTakes
      have hOpens := readWord_opens hSettle hNames hLong hTakes
      have hTaken : l.readWord ⟨given, some ⟨o.arg, o.form, false, []⟩, places, false⟩ value =
          .ok ⟨given, some ⟨o.arg, o.form, false, [value]⟩, places, false⟩ :=
        readWord_plain hValue rfl
      have hOther : commandOf? (switchWord long) = none := by rw [switchWord_eq, commandOf?_hyphen]
      refine ⟨_, ?_, settle_of_read hRead hNew o.form false, fun rest => ?_⟩
      · rw [List.foldlM_cons, hOpens]
        simp only [bind, Except.bind, List.foldlM_cons, hTaken]
        rfl
      · rw [List.cons_append, List.singleton_append, readToCommand_cons (.inr hOther), hOpens]
        simp only [bind, Except.bind]
        rw [readToCommand_cons (.inl rfl), hTaken]
        rfl
  | @letters cs entries hSome hLetters =>
      obtain ⟨-, hTrailing, -⟩ := settle_spec hSettle
      obtain ⟨t, hRead, hNext⟩ := readShort_of_letters hLetters hSettle hOnce
      have hWord : l.readWord s (45 :: Text.Utf8.encode cs) = .ok t := by
        cases hLetters with
        | nil => exact absurd rfl hSome
        | cons hLetter _ => rw [readWord_short hTrailing (hLetter.ne_hyphen hHyphen), hRead]
      refine ⟨t, by rw [List.foldlM_cons, hWord]; rfl, hNext, fun rest => ?_⟩
      rw [List.singleton_append, readToCommand_cons (.inr (commandOf?_hyphen _)), hWord]
      rfl

/-- **Options in front of the command word are read up to it.** -/
theorem readToCommand_of_gives (hNames : l.NamesOptions) (hHyphen : l.short? '-' = none)
    {words : List Word} {entries : Given} (h : l.Gives words entries)
    (hSettle : s.settle = .ok ⟨given, none, places, false⟩) (hOnce : l.Once (given ++ entries))
    (rest : List Word) :
    ∃ t, t.settle = .ok ⟨given ++ entries, none, places, false⟩ ∧
      l.readToCommand s (words ++ rest) = l.readToCommand t rest := by
  obtain ⟨ps, gs, hSpells, rfl, rfl⟩ := h
  induction hSpells generalizing given s with
  | nil => exact ⟨s, by rw [List.flatten_nil, List.append_nil, hSettle], rfl⟩
  | @cons piece first ps gs hPiece _ ih =>
      rw [List.flatten_cons, ← List.append_assoc] at hOnce
      obtain ⟨t, -, hNext, hRead⟩ :=
        foldlM_of_spells hNames hHyphen hPiece hSettle hOnce.append_left
      obtain ⟨u, hEnd, hLast⟩ := ih hNext hOnce
      rw [List.append_assoc] at hEnd
      refine ⟨u, hEnd, ?_⟩
      rw [List.flatten_cons, List.append_assoc, hRead, hLast]

/-! ## Rejections behind the command word -/

theorem sparesCommand_readSwitch (l : Level) (s : Progress) (o : OptionSpec) (detail : Detail) :
    SparesCommand (l.readSwitch s o detail) := by
  refine .bind (.faulty _) fun s => ?_
  dsimp only
  split
  · exact .error (r := .help detail l.command?) (by simp [Rejection.exitCode])
  · split
    · exact .error (r := .argument (.conflict o.form)) (by simp [Rejection.exitCode])
    · exact .ok _

theorem sparesCommand_readLong (l : Level) (s : Progress) (body : Word) :
    SparesCommand (l.readLong s body) := by
  unfold readLong
  dsimp only
  split
  · exact .error (by simp [Rejection.exitCode])
  · split
    · exact sparesCommand_readSwitch l s _ _
    · exact .error (by simp [Rejection.exitCode])
    · exact .faulty _
    · exact .faulty _

theorem sparesCommand_readShort (l : Level) (s : Progress) (body : Word) :
    SparesCommand (l.readShort s body) := by
  unfold readShort
  dsimp only
  refine .bind (.foldlM (fun s c => ?_) _ _) fun s => ?_
  · split
    · exact sparesCommand_readSwitch l s _ _
    · exact .error (by simp [Rejection.exitCode])
  · split
    · exact .ok _
    · exact .error (by simp [Rejection.exitCode])

/-- Behind the command word a word for which there is no place is no command word. -/
theorem sparesCommand_readPlace (hCommand : l.command?.isSome) (s : Progress) (word : Word) :
    SparesCommand (l.readPlace s word) := by
  unfold readPlace
  split
  · refine .error ?_
    have hKnown : l.command?.isNone = false := by
      rw [← Option.not_isSome, hCommand]
      rfl
    simp [surplus, hKnown, Rejection.exitCode]
  · split
    · exact .ok _
    · exact .faulty _

theorem sparesCommand_readWord (hCommand : l.command?.isSome) (s : Progress) (word : Word) :
    SparesCommand (l.readWord s word) := by
  unfold readWord
  split
  · exact sparesCommand_readPlace hCommand s word
  · split
    · exact .ok _
    · exact sparesCommand_readLong l s _
    · exact sparesCommand_readShort l s _
    · split
      · exact .ok _
      · exact sparesCommand_readPlace hCommand s _

theorem sparesCommand_finish (env : Environment) (s : Progress) : SparesCommand (finish env s) := by
  refine .bind (.faulty _) fun s => ?_
  exact .bind (.faulty _) fun _ => .ok _

/-- **The words behind the command word are not rejected for want of a command.** -/
theorem sparesCommand_readWords (hCommand : l.command?.isSome) (env : Environment) (words : List Word) :
    SparesCommand (l.readWords env words) := by
  refine .bind (.foldlM (sparesCommand_readWord hCommand) _ _) fun s => ?_
  refine .bind (sparesCommand_finish env s) fun given => ?_
  exact .bind (.faulty _) fun _ => .ok _

end Level

/-! ## Command lines -/

section CommandWord

variable {l : Level} {s : Progress} {w : String}

theorem commandOf?_bytes (w : String) : Level.commandOf? (Text.Utf8.bytes w) = CommandName.ofName? w := by
  rw [Level.commandOf?, Text.Utf8.text?_bytes, Option.bind_some]

/-- The name of a command is its command word. -/
theorem ofName?_eq_none_iff : CommandName.ofName? w = none ↔ ∀ c : CommandName, c.name ≠ w := by
  constructor
  · rintro hNone c rfl
    rw [CommandName.ofName?_name] at hNone
    cases hNone
  · intro hNames
    cases hName : CommandName.ofName? w with
    | none => rfl
    | some c => exact absurd (CommandName.name_of_ofName? hName) (hNames c)

/-- A command word ends the words in front of it. -/
theorem readToCommand_of_ofName? {c : CommandName} (hName : CommandName.ofName? w = some c)
    (hTrailing : s.trailing = false) (hAwaits : s.awaits = false) (rest : List Word) :
    l.readToCommand s (Text.Utf8.bytes w :: rest) = .ok (s, some (c, rest)) := by
  rw [Level.readToCommand, hTrailing, hAwaits, commandOf?_bytes, hName]
  rfl

/-- A word that stands where a command word should, and is none, is rejected at once. -/
theorem readToCommand_of_unknown (hNone : CommandName.ofName? w = none)
    (hPlain : w.toList.head? ≠ some '-') (hPlaces : s.places = []) (hTrailing : s.trailing = false)
    (hAwaits : s.awaits = false) (hTop : l.command? = none) (rest : List Word) :
    l.readToCommand s (Text.Utf8.bytes w :: rest) = .error (.unknownCommand w) := by
  have hText : Text.Utf8.lossyText (Text.Utf8.bytes w) = w := by
    rw [Text.Utf8.lossyText, Text.Utf8.bytes, Text.Utf8.decodeLossy_encode, String.ofList_toList]
  have hSurplus : l.surplus (Text.Utf8.bytes w) = .unknownCommand w := by
    rw [Level.surplus, hText, hTop, commandOf?_bytes, hNone]
    rfl
  have hWord : l.readWord s (Text.Utf8.bytes w) = .error (.unknownCommand w) := by
    have hForm : ∀ b body, Text.Utf8.bytes w ≠ 45 :: b :: body :=
      fun b body => Level.encode_ne_hyphen hPlain (b :: body)
    rw [Level.readWord_plain hForm hTrailing, hAwaits, if_neg Bool.false_ne_true, Level.readPlace,
      hPlaces, ← hSurplus]
    rfl
  rw [Level.readToCommand_cons (.inr ((commandOf?_bytes w).trans hNone)), hWord]
  rfl

end CommandWord

/-- What a level gave is known once its last argument is settled, but for the variable of the
environment. -/
theorem Level.finish_of_settle {env : Environment} {t u : Progress} (h : t.settle = .ok u) :
    Level.finish env t = (Level.faulty (env.check u.given)).map fun _ => u.given := by
  simp only [Level.finish, h, Level.faulty, Except.mapError, bind, Except.bind]
  cases env.check u.given <;> rfl

/-- What is left to do at the command word. -/
theorem read_of_readToCommand (env : Environment) {words rest : List Word} {t : Progress}
    {c : CommandName}
    (h : Level.top.readToCommand Level.top.start words = .ok (t, some (c, rest))) :
    read env words = (do
      let after ← (Level.ofCommand c).readWords env rest
      let command ← Level.faulty (after.command c)
      let given ← Level.finish env t
      Level.faulty (Level.top.checkExclusive given)
      return ⟨settingsOf env given after, command⟩) := by
  rw [read, h]
  rfl

/-- Behind the command word a command line is not rejected for want of a command. -/
theorem sparesCommand_read (env : Environment) {words rest : List Word} {t : Progress}
    {c : CommandName}
    (h : Level.top.readToCommand Level.top.start words = .ok (t, some (c, rest))) :
    SparesCommand (read env words) := by
  have hLevel : (Level.ofCommand c).command? = some c := Level.command?_of (some c)
  rw [read_of_readToCommand env h]
  refine .bind (Level.sparesCommand_readWords (by rw [hLevel]; rfl) env rest) fun after => ?_
  refine .bind (.faulty _) fun command => ?_
  refine .bind (Level.sparesCommand_finish env t) fun given => ?_
  exact .bind (.faulty _) fun _ => .ok _

/-- **The command word alone decides whether there is a command.** Behind options in any spelling, a word
that is not the name of a command is the one that is reported, whatever follows it. Behind the name of a
command everything else that is wrong is a request for help or a fault of an argument, or it breaks the
program off. Options alone are missing a command, unless what comes first is a variable of the environment
that is not text and that no option takes the place of. -/
theorem read_commandWord (env : Environment) {words : List Word} {given : Given}
    (hGives : Level.top.Gives words given) (hOnce : Level.top.Once given) :
    ((env.Serves given → read env words = .error .missingCommand) ∧
      (¬env.Serves given → read env words = .error (.argument .notText)) ∧
      Rejection.missingCommand.exitCode = 1) ∧
    ∀ (w : String) (rest : List Word), w.toList.head? ≠ some '-' →
      (read env (words ++ Text.Utf8.bytes w :: rest) = .error (.unknownCommand w) ↔
        ∀ c : CommandName, c.name ≠ w) ∧
      (Rejection.unknownCommand w).exitCode = 1 ∧
      ∀ c : CommandName, c.name = w →
        ∀ r, read env (words ++ Text.Utf8.bytes w :: rest) = .error r →
          (∃ detail topic?, r = .help detail topic?) ∧ r.exitCode = 0 ∨
            (∃ fault, fault ≠ .overflow ∧ r = .argument fault) ∧ r.exitCode = 2 ∨
            r = .argument .overflow ∧ r.exitCode = 101 := by
  have hNames : Level.top.NamesOptions := by decide +kernel
  have hStart : Level.top.start.settle = .ok ⟨[], none, [], false⟩ := rfl
  have hRead := Level.readToCommand_of_gives hNames (by decide) hGives hStart hOnce
  constructor
  · obtain ⟨t, hSettle, hWords⟩ := hRead []
    rw [List.append_nil] at hWords
    rw [List.nil_append] at hSettle
    have hRefused : read env words = (Level.finish env t >>= fun _ => throw .missingCommand) := by
      rw [read, hWords]
      rfl
    rw [hRefused, Level.finish_of_settle hSettle, Environment.check]
    refine ⟨fun hServes => ?_, fun hNone => ?_, rfl⟩
    · rw [if_pos hServes]
      rfl
    · rw [if_neg hNone]
      rfl
  · intro w rest hPlain
    obtain ⟨t, hSettle, hWords⟩ := hRead (Text.Utf8.bytes w :: rest)
    obtain ⟨hPlaces, hTrailing, hAwaits⟩ := Level.settle_spec hSettle
    have hKnown : ∀ c : CommandName, c.name = w →
        SparesCommand (read env (words ++ Text.Utf8.bytes w :: rest)) := by
      rintro c rfl
      rw [readToCommand_of_ofName? (CommandName.ofName?_name c) hTrailing hAwaits rest] at hWords
      exact sparesCommand_read env hWords
    refine ⟨⟨?_, ?_⟩, rfl, ?_⟩
    · rintro hUnknown c hName
      exact hKnown c hName _ hUnknown rfl
    · intro hNone
      rw [← ofName?_eq_none_iff] at hNone
      rw [readToCommand_of_unknown hNone hPlain hPlaces hTrailing hAwaits rfl rest] at hWords
      rw [read, hWords]
      rfl
    · intro c hName r hRejected
      have hSpared := hKnown c hName r hRejected
      cases r with
      | missingCommand => exact absurd rfl hSpared
      | unknownCommand => exact absurd rfl hSpared
      | help detail topic? => exact .inl ⟨⟨detail, topic?, rfl⟩, rfl⟩
      | argument fault =>
          by_cases hFault : fault = .overflow
          · exact .inr (.inr ⟨by rw [hFault], by rw [hFault]; rfl⟩)
          · exact .inr (.inl ⟨⟨fault, hFault, rfl⟩, ArgumentFault.exitCode_of_ne hFault⟩)

/-- Options in three spellings, with a value that looks like a command word; behind them a name that is
no command, and the command that it is close to. -/
theorem read_commandWord_lists :
    ∃ words given, words = ["--url", "list", "-dd", "--output=json"].map Text.Utf8.bytes ∧
      Level.top.Gives words given ∧ Level.top.Once given ∧ Environment.Serves ⟨none⟩ given ∧
      read ⟨none⟩ words = .error .missingCommand ∧
      "lists".toList.head? ≠ some '-' ∧ (∀ c : CommandName, c.name ≠ "lists") ∧
      read ⟨none⟩ (words ++ Text.Utf8.bytes "lists" :: [Text.Utf8.bytes "--help"]) =
        .error (.unknownCommand "lists") ∧
      "list".toList.head? ≠ some '-' ∧ CommandName.list.name = "list" ∧
      ∃ r, read ⟨none⟩ (words ++ Text.Utf8.bytes "list" :: [Text.Utf8.bytes "lists"]) = .error r ∧
        ((∃ detail topic?, r = .help detail topic?) ∧ r.exitCode = 0 ∨
          (∃ fault, fault ≠ .overflow ∧ r = .argument fault) ∧ r.exitCode = 2 ∨
          r = .argument .overflow ∧ r.exitCode = 101) := by
  have hWords : [[switchWord "url", Text.Utf8.bytes "list"], [45 :: Text.Utf8.encode ['d', 'd']],
      [optionWord "output" (Text.Utf8.bytes "json")]].flatten =
      ["--url", "list", "-dd", "--output=json"].map Text.Utf8.bytes := by decide +kernel
  have hDetail : Level.top.Letter 'd' (.debug, .on) := ⟨_, rfl, by decide, rfl⟩
  have hGives : Level.top.Gives (["--url", "list", "-dd", "--output=json"].map Text.Utf8.bytes)
      [(.url, .text "list"), (.debug, .on), (.debug, .on), (.output, .format .json)] := by
    have hUrl : Level.top.Spells [switchWord "url", Text.Utf8.bytes "list"] [(.url, .text "list")] :=
      .apart ⟨_, rfl, rfl, rfl⟩ (by decide +kernel) fun b body =>
        Level.encode_ne_hyphen (by decide) (b :: body)
    have hOutput : Level.top.Spells [optionWord "output" (Text.Utf8.bytes "json")]
        [(.output, .format .json)] := .word (.value ⟨_, rfl, rfl, rfl⟩ (by decide +kernel))
    have hLetters := Level.Spells.letters (by simp) (.cons hDetail (.cons hDetail .nil))
    exact ⟨_, _, .cons hUrl (.cons hLetters (.cons hOutput .nil)), hWords.symm, rfl⟩
  have hOnce : Level.top.Once
      [(.url, .text "list"), (.debug, .on), (.debug, .on), (.output, .format .json)] := by
    intro a hRepeats
    cases a with
    | debug => exact absurd (by decide) hRepeats
    | _ => decide
  obtain ⟨⟨hMissing, -⟩, hCommands⟩ := read_commandWord ⟨none⟩ hGives hOnce
  have hNone : ∀ c : CommandName, c.name ≠ "lists" := by
    intro c
    cases c <;> decide
  have hLists := hCommands "lists" [Text.Utf8.bytes "--help"] (by decide)
  have hList := hCommands "list" [Text.Utf8.bytes "lists"] (by decide)
  have hRejected : read ⟨none⟩ (["--url", "list", "-dd", "--output=json"].map Text.Utf8.bytes ++
      Text.Utf8.bytes "list" :: [Text.Utf8.bytes "lists"]) =
      .error (.argument (.notAllowed "[KIND]" "lists")) := by decide +kernel
  have hServes : Environment.Serves ⟨none⟩
      [(.url, .text "list"), (.debug, .on), (.debug, .on), (.output, .format .json)] := by decide
  exact ⟨_, _, rfl, hGives, hOnce, hServes, hMissing hServes, by decide, hNone, hLists.1.2 hNone,
    by decide, rfl, _, hRejected, hList.2.2 .list rfl _ hRejected⟩

end ControlClient.CommandLine
