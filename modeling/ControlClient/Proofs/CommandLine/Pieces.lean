import ControlClient.Proofs.CommandLine.CommandWord

/-!
# Pieces of a level

The words of a level fall into pieces, one for each time that something is given: a positional word, a
word of options, or an option and the word of its value behind it. The separator makes one piece with all
words that follow. Where a piece ends is seen from the words and the table of the level alone, and a piece
is the same wherever it stands (`pieces_flatten_of_sublist`); so it can be said of a command line that
some of its pieces stand elsewhere in another one.

A piece of options says in each level that has them what it gives (`Spells`), and all of it is of one
argument (`Spells.argOf?_eq`).

## Main results

* `isSound`: what all tables of the client have in common.
* `Spells.pieces_append`: what spells an option is a piece.
* `Spells.of_isGlobal`: an option of all levels is spelled alike in each of them.
* `gives_iff`: words that give options are pieces that spell them.
-/

namespace ControlClient.CommandLine

namespace Level

/-! ## Cutting -/

/-- The option that a word names: the one of its long name or of its first letter. -/
def optionOf? (l : Level) : Word → Option OptionSpec
  | 45 :: 45 :: body => (Text.Utf8.text? (nameAndValue body).1).bind l.long?
  | 45 :: b :: body => (Text.Utf8.leading (b :: body)).1.head?.bind l.short?
  | _ => none

/-- Whether a word names an option whose value is the next word. -/
def opens (l : Level) (word : Word) : Bool :=
  match word with
  | 45 :: 45 :: body =>
      (nameAndValue body).2.isNone && (l.optionOf? word).any (·.valueName?.isSome)
  | _ => false

/-- The pieces of some words. -/
def pieces (l : Level) : List Word → List (List Word)
  | [] => []
  | word :: rest =>
      if word = separator then [word :: rest]
      else if l.opens word then
        match rest with
        | [] => [[word]]
        | value :: others => [word, value] :: l.pieces others
      else [word] :: l.pieces rest

/-- The argument that a piece gives by name. -/
def argOf? (l : Level) (piece : List Word) : Option Arg :=
  (piece.head?.bind l.optionOf?).map (·.arg)

variable {l : Level}

theorem pieces_separator (l : Level) (rest : List Word) :
    l.pieces (separator :: rest) = [separator :: rest] := by
  unfold pieces
  exact if_pos rfl

theorem pieces_opens {word : Word} (hOther : word ≠ separator) (h : l.opens word = true) (value : Word)
    (rest : List Word) : l.pieces (word :: value :: rest) = [word, value] :: l.pieces rest := by
  rw [pieces, if_neg hOther, if_pos h]

theorem pieces_single {word : Word} (hOther : word ≠ separator) (h : l.opens word = false)
    (rest : List Word) : l.pieces (word :: rest) = [word] :: l.pieces rest := by
  rw [pieces.eq_def]
  dsimp only
  rw [if_neg hOther, if_neg (Bool.eq_false_iff.1 h)]

/-- **Cutting loses nothing.** -/
theorem flatten_pieces (l : Level) (words : List Word) : (l.pieces words).flatten = words := by
  fun_induction l.pieces words with
  | case1 => rfl
  | case2 => simp
  | case3 => rfl
  | case4 word _ _ value others ih => simp [ih]
  | case5 word rest _ _ ih => simp [ih]

/-- **A piece is the same wherever it stands**: if some pieces are left out, the others are still
pieces. -/
theorem pieces_flatten_of_sublist {words : List Word} {kept : List (List Word)}
    (h : kept.Sublist (l.pieces words)) : l.pieces kept.flatten = kept := by
  fun_induction l.pieces words generalizing kept with
  | case1 =>
      rw [List.sublist_nil.1 h]
      rfl
  | case2 rest =>
      rcases List.sublist_cons_iff.1 h with hNone | ⟨others, rfl, hOthers⟩
      · rw [List.sublist_nil.1 hNone]
        rfl
      · rw [List.sublist_nil.1 hOthers, List.flatten_singleton, pieces_separator]
  | case3 word hOther hOpens =>
      rcases List.sublist_cons_iff.1 h with hNone | ⟨others, rfl, hOthers⟩
      · rw [List.sublist_nil.1 hNone]
        rfl
      · rw [List.sublist_nil.1 hOthers, List.flatten_singleton]
        rw [pieces, if_neg hOther, if_pos hOpens]
  | case4 word hOther hOpens value others ih =>
      rcases List.sublist_cons_iff.1 h with hLeft | ⟨rest, rfl, hRest⟩
      · exact ih hLeft
      · rw [List.flatten_cons, List.cons_append, List.cons_append, List.nil_append,
          pieces_opens hOther hOpens, ih hRest]
  | case5 word rest hOther hOpens ih =>
      rcases List.sublist_cons_iff.1 h with hLeft | ⟨others, rfl, hOthers⟩
      · exact ih hLeft
      · rw [List.flatten_cons, List.cons_append, List.nil_append,
          pieces_single hOther (by simpa using hOpens), ih hOthers]

/-- A word that does not look like an option names none. -/
theorem optionOf?_plain {word : Word} (h : ∀ b body, word ≠ 45 :: b :: body) :
    l.optionOf? word = none := by
  unfold optionOf?
  split
  · exact absurd rfl (h _ _)
  · exact absurd rfl (h _ _)
  · rfl

theorem opens_plain {word : Word} (h : ∀ b body, word ≠ 45 :: b :: body) : l.opens word = false := by
  unfold opens
  split
  · exact absurd rfl (h _ _)
  · rfl

/-! ## Tables -/

/-- What is asked of the table of a level: its names can be told apart from values, at most one switch
has a letter or counts, help is a switch, its places are none of its options, and the options of all
levels are among its options under their names. -/
structure IsSound (l : Level) : Prop where
  names : l.NamesOptions
  hyphen : l.short? '-' = none
  letters : ∀ o ∈ l.options, o.arg ≠ .help → o.short?.isSome ∨ o.counts → o.arg = .debug
  counted : l.Repeats .debug
  help : ∀ o ∈ l.options, o.arg = .help → o.valueName? = none
  apart : (l.positionals.map (·.arg)).Nodup
  places : ∀ p ∈ l.positionals, ∀ o ∈ l.options, o.arg ≠ p.arg
  shared : ∀ o ∈ l.options, o.arg.isGlobal → o ∈ globalOptions
  global : ∀ o ∈ globalOptions, l.long? o.long = some o ∧ o.short?.all (l.short? · = some o)

/-- **All tables of the client are sound.** -/
theorem isSound (c? : Option CommandName) : (of c?).IsSound := by
  rcases c? with _ | c
  · constructor <;> decide +kernel
  · cases c <;> constructor <;> decide +kernel

/-! ## Spellings -/

section Named

variable {long : String} {o : OptionSpec}

theorem optionOf?_optionWord (hNames : l.NamesOptions) (hLong : l.long? long = some o) (value : Word) :
    l.optionOf? (optionWord long value) = some o := by
  rw [optionWord_eq, optionOf?, nameAndValue_append (hNames.of_long? hLong).2, Text.Utf8.text?_bytes]
  exact hLong

theorem optionOf?_switchWord (hNames : l.NamesOptions) (hLong : l.long? long = some o) :
    l.optionOf? (switchWord long) = some o := by
  rw [switchWord_eq, optionOf?, nameAndValue_of_forall (hNames.of_long? hLong).2, Text.Utf8.text?_bytes]
  exact hLong

theorem opens_optionWord (hNames : l.NamesOptions) (hLong : l.long? long = some o) (value : Word) :
    l.opens (optionWord long value) = false := by
  rw [optionWord_eq, opens, nameAndValue_append (hNames.of_long? hLong).2]
  rfl

theorem opens_switchWord (hNames : l.NamesOptions) (hLong : l.long? long = some o) :
    l.opens (switchWord long) = o.valueName?.isSome := by
  have hOption := optionOf?_switchWord hNames hLong
  rw [switchWord_eq] at hOption ⊢
  rw [opens, nameAndValue_of_forall (hNames.of_long? hLong).2, hOption]
  rfl

theorem optionWord_ne_separator (long : String) (value : Word) : optionWord long value ≠ separator := by
  rw [optionWord_eq, separator]
  simp

theorem switchWord_ne_separator (hNames : l.NamesOptions) (hLong : l.long? long = some o) :
    switchWord long ≠ separator := by
  rw [switchWord_eq, separator]
  simpa using (hNames.of_long? hLong).1

end Named

section Letters

variable {c : Char} {cs : List Char}

theorem optionOf?_letters (h : c ≠ '-') (cs : List Char) :
    l.optionOf? (45 :: Text.Utf8.encode (c :: cs)) = l.short? c := by
  obtain ⟨b, body, hBytes, hOther⟩ := exists_encode_cons h cs
  have hLeading := Text.Utf8.leading_encode (c :: cs)
  rw [hBytes] at hLeading ⊢
  simp [optionOf?, hLeading]

theorem opens_letters (h : c ≠ '-') (cs : List Char) :
    l.opens (45 :: Text.Utf8.encode (c :: cs)) = false := by
  obtain ⟨b, body, hBytes, hOther⟩ := exists_encode_cons h cs
  rw [hBytes]
  simp [opens, hOther]

theorem letters_ne_separator (h : c ≠ '-') (cs : List Char) :
    45 :: Text.Utf8.encode (c :: cs) ≠ separator := by
  obtain ⟨b, body, hBytes, hOther⟩ := exists_encode_cons h cs
  rw [hBytes, separator]
  simp [hOther]

end Letters

/-- All letters of switches are those of the one that counts. -/
theorem Letter.arg_eq (hSound : l.IsSound) {c : Char} {entry : Arg × Datum} (h : l.Letter c entry) :
    entry.1 = .debug := by
  obtain ⟨o, hShort, hHelp, rfl⟩ := h
  refine hSound.letters o (List.mem_of_find?_eq_some hShort) hHelp (.inl ?_)
  have hLetter : o.short? = some c := by simpa using List.find?_some hShort
  rw [hLetter]
  rfl

theorem arg_eq_of_letters (hSound : l.IsSound) {cs : List Char} {entries : Given}
    (h : List.Forall₂ l.Letter cs entries) : ∀ e ∈ entries, e.1 = .debug := by
  induction h with
  | nil => simp
  | cons hLetter _ ih =>
      intro e he
      rcases List.mem_cons.1 he with rfl | hLater
      · exact hLetter.arg_eq hSound
      · exact ih e hLater

/-- What a letter says in one level it says in all. -/
theorem Letter.of_isSound {m : Level} (hSound : l.IsSound) (hOther : m.IsSound) {c : Char}
    {entry : Arg × Datum} (h : l.Letter c entry) : m.Letter c entry := by
  have hArg := h.arg_eq hSound
  obtain ⟨o, hShort, hHelp, rfl⟩ := h
  have hLetter : o.short? = some c := by simpa using List.find?_some hShort
  have hGlobal : o.arg.isGlobal := by
    rw [show o.arg = .debug from hArg]
    rfl
  have hShared := hSound.shared o (List.mem_of_find?_eq_some hShort) hGlobal
  have hNamed : m.short? c = some o := by simpa [hLetter] using (hOther.global o hShared).2
  exact ⟨o, hNamed, hHelp, rfl⟩

namespace Spells

variable {piece : List Word} {entries : Given}

/-- Where the first word of an option is cut: behind it, unless its value is a word of its own. -/
theorem opens_eq (hSound : l.IsSound) {word : Word} {rest : List Word}
    (h : l.Spells (word :: rest) entries) : word ≠ separator ∧ l.opens word = !rest.isEmpty := by
  cases h with
  | word hSays =>
      cases hSays with
      | value hOption _ =>
          obtain ⟨o, hLong, -, -⟩ := hOption
          exact ⟨optionWord_ne_separator _ _, opens_optionWord hSound.names hLong _⟩
      | switch hOption _ =>
          obtain ⟨o, hLong, -, hSwitch⟩ := hOption
          refine ⟨switchWord_ne_separator hSound.names hLong, ?_⟩
          rw [opens_switchWord hSound.names hLong, hSwitch]
          rfl
  | apart hOption _ _ =>
      obtain ⟨o, hLong, -, hTakes⟩ := hOption
      exact ⟨switchWord_ne_separator hSound.names hLong,
        (opens_switchWord hSound.names hLong).trans hTakes⟩
  | letters hSome hLetters =>
      cases hLetters with
      | nil => exact absurd rfl hSome
      | cons hLetter _ =>
          have hFirst := hLetter.ne_hyphen hSound.hyphen
          exact ⟨letters_ne_separator hFirst _, opens_letters hFirst _⟩

/-- **What spells an option is a piece**, whatever follows it. -/
theorem pieces_append (hSound : l.IsSound) (h : l.Spells piece entries) (rest : List Word) :
    l.pieces (piece ++ rest) = piece :: l.pieces rest := by
  cases h with
  | word hSays =>
      obtain ⟨hOther, hOpens⟩ := (Spells.word hSays).opens_eq hSound
      exact pieces_single hOther hOpens rest
  | apart hOption hRead hValue =>
      obtain ⟨hOther, hOpens⟩ := (Spells.apart hOption hRead hValue).opens_eq hSound
      exact pieces_opens hOther hOpens _ rest
  | letters hSome hLetters =>
      obtain ⟨hOther, hOpens⟩ := (Spells.letters hSome hLetters).opens_eq hSound
      exact pieces_single hOther hOpens rest

/-- The words of some options are cut into them again. -/
theorem pieces_flatten (hSound : l.IsSound) {ps : List (List Word)} {gs : List Given}
    (h : List.Forall₂ l.Spells ps gs) : l.pieces ps.flatten = ps := by
  induction h with
  | nil => rfl
  | cons hPiece _ ih => rw [List.flatten_cons, hPiece.pieces_append hSound, ih]

/-- **A piece of options gives one argument**, the one that it names. -/
theorem argOf?_eq (hSound : l.IsSound) (h : l.Spells piece entries) :
    ∃ o ∈ l.options, l.argOf? piece = some o.arg ∧ o.arg ≠ .help ∧ entries ≠ [] ∧
      ∀ e ∈ entries, e.1 = o.arg := by
  have hTakes : ∀ {o : OptionSpec}, o ∈ l.options → o.valueName?.isSome → o.arg ≠ .help := by
    intro o hOption hSome hHelp
    rw [hSound.help o hOption hHelp] at hSome
    cases hSome
  cases h with
  | word hSays =>
      cases hSays with
      | value hOption _ =>
          obtain ⟨o, hLong, rfl, hSome⟩ := hOption
          have hMem := List.mem_of_find?_eq_some hLong
          refine ⟨o, hMem, ?_, hTakes hMem hSome, by simp, by simp⟩
          simp [argOf?, optionOf?_optionWord hSound.names hLong]
      | switch hOption hHelp =>
          obtain ⟨o, hLong, rfl, -⟩ := hOption
          refine ⟨o, List.mem_of_find?_eq_some hLong, ?_, hHelp, by simp, by simp⟩
          simp [argOf?, optionOf?_switchWord hSound.names hLong]
  | apart hOption _ _ =>
      obtain ⟨o, hLong, rfl, hSome⟩ := hOption
      have hMem := List.mem_of_find?_eq_some hLong
      refine ⟨o, hMem, ?_, hTakes hMem hSome, by simp, by simp⟩
      simp [argOf?, optionOf?_switchWord hSound.names hLong]
  | letters hSome hLetters =>
      have hArgs := arg_eq_of_letters hSound hLetters
      cases hLetters with
      | nil => exact absurd rfl hSome
      | @cons c entry cs entries hLetter _ =>
          have hFirst := hLetter.ne_hyphen hSound.hyphen
          have hArg := hLetter.arg_eq hSound
          obtain ⟨o, hShort, hHelp, rfl⟩ := hLetter
          refine ⟨o, List.mem_of_find?_eq_some hShort, ?_, hHelp, by simp, ?_⟩
          · simp [argOf?, optionOf?_letters hFirst, hShort]
          · intro e he
            exact (hArgs e he).trans hArg.symm

/-- **An option of all levels is spelled alike in each of them.** -/
theorem of_isGlobal {m : Level} (hSound : l.IsSound) (hOther : m.IsSound) (h : l.Spells piece entries)
    (hGlobal : (l.argOf? piece).any (·.isGlobal)) : m.Spells piece entries := by
  have hLong : ∀ {long : String} {o : OptionSpec}, l.long? long = some o → o.arg.isGlobal →
      m.long? long = some o := by
    intro long o hLong hArg
    have hName : o.long = long := by simpa using List.find?_some hLong
    rw [← hName]
    exact (hOther.global o (hSound.shared o (List.mem_of_find?_eq_some hLong) hArg)).1
  have hArgs : ∀ e ∈ entries, e.1.isGlobal := by
    obtain ⟨o, -, hArg, -, -, hSame⟩ := h.argOf?_eq hSound
    intro e he
    rw [hSame e he]
    simpa [hArg] using hGlobal
  cases h with
  | word hSays =>
      cases hSays with
      | value hOption hRead =>
          obtain ⟨o, hFound, rfl, hTakes⟩ := hOption
          exact .word (.value ⟨o, hLong hFound (hArgs _ (.head _)), rfl, hTakes⟩ hRead)
      | switch hOption hHelp =>
          obtain ⟨o, hFound, rfl, hSwitch⟩ := hOption
          exact .word (.switch ⟨o, hLong hFound (hArgs _ (.head _)), rfl, hSwitch⟩ hHelp)
  | apart hOption hRead hValue =>
      obtain ⟨o, hFound, rfl, hTakes⟩ := hOption
      exact .apart ⟨o, hLong hFound (hArgs _ (.head _)), rfl, hTakes⟩ hRead hValue
  | letters hSome hLetters =>
      exact .letters hSome (hLetters.imp fun _ _ hLetter => hLetter.of_isSound hSound hOther)

end Spells

/-- **Words that give options are pieces that spell them.** -/
theorem gives_iff (hSound : l.IsSound) {words : List Word} {given : Given} :
    l.Gives words given ↔ ∃ gs, List.Forall₂ l.Spells (l.pieces words) gs ∧ given = gs.flatten := by
  constructor
  · intro h
    obtain ⟨ps, gs, hSpells, rfl, rfl⟩ := h
    exact ⟨gs, by rwa [Spells.pieces_flatten hSound hSpells], rfl⟩
  · rintro ⟨gs, hSpells, rfl⟩
    exact ⟨_, gs, hSpells, (flatten_pieces l words).symm, rfl⟩

end Level

end ControlClient.CommandLine
