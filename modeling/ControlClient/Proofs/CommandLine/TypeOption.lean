import ControlClient.Proofs.CommandLine.Reading
import ControlClient.Proofs.Text.Split

/-!
# The option of a task type

What `--type=` gives depends on what stands behind the equals sign, and on nothing else: not on the other
words of the command line, not on where the option stands among them, and not on whether the command is
`define` or `record`. So the option is looked at in its place. A word that gives an option its value is a
piece of its own wherever it is read, and another value may stand in it without a change to any other
piece (`Reads.exchange`). The words around the option are free; all that is asked of them is that with
some value they are a command line at all.

## Main results

* `Level.Reads.exchange`: another value of an option, in the same place.
* `readWords_typeWord`: another type in the same place, and nothing else changed.
* `takesType_iff`: which values are taken for which type.
-/

namespace ControlClient

/-- The task type that a command was given. -/
def Command.type? : Command → Option TaskType
  | record o => o.type?
  | define o => o.type?
  | _ => none

namespace CommandLine

/-- The word that gives a task type by name. -/
def typeWord (s : String) : Word := optionWord "type" (Text.Utf8.bytes s)

/-- With this value of the option between them, some words are read as a command of a task type. -/
def TakesType (env : Environment) (before after : List Word) (s : String) (t : TaskType) : Prop :=
  ∃ i, read env (before ++ typeWord s :: after) = .ok i ∧ i.command.type? = some t

/-- Words around the option of a task type: with some value of it they are read as a command of some
type. -/
def IsTypePlace (env : Environment) (before after : List Word) : Prop :=
  ∃ s t, TakesType env before after s t

/-! ## Words of options -/

/-- The name and the value of an option are seen from its word. -/
theorem optionWord_inj {long other : String} {value next : Word}
    (hLong : ∀ b ∈ Text.Utf8.bytes long, b ≠ 61) (hOther : ∀ b ∈ Text.Utf8.bytes other, b ≠ 61)
    (h : optionWord long value = optionWord other next) : long = other ∧ value = next := by
  rw [Level.optionWord_eq, Level.optionWord_eq, List.cons.injEq, List.cons.injEq] at h
  have hParts := congrArg Level.nameAndValue h.2.2
  rw [Level.nameAndValue_append hLong, Level.nameAndValue_append hOther, Prod.mk.injEq] at hParts
  have hText := congrArg Text.Utf8.text? hParts.1
  rw [Text.Utf8.text?_bytes, Text.Utf8.text?_bytes] at hText
  exact ⟨Option.some.inj hText, Option.some.inj hParts.2⟩

namespace Level

variable {l : Level} {long : String} {o : OptionSpec} {value : Word} {places : List PositionalSpec}
variable {given : Given}

/-- The word of an option with its value gives the value. -/
theorem Spells.eq_of_optionWord (hSound : l.IsSound) (hLong : l.long? long = some o)
    (hTakes : o.valueName?.isSome) {entries : Given} (h : l.Spells [optionWord long value] entries) :
    ∃ d, o.arg.read value = .ok d ∧ entries = [(o.arg, d)] := by
  have hPlain := (hSound.names.of_long? hLong).2
  generalize hWord : optionWord long value = word at h
  cases h with
  | word hSays =>
      cases hSays with
      | value hOption hRead =>
          obtain ⟨q, hFound, rfl, -⟩ := hOption
          obtain ⟨rfl, rfl⟩ := optionWord_inj hPlain (hSound.names.of_long? hFound).2 hWord
          rw [hLong] at hFound
          cases hFound
          exact ⟨_, hRead, rfl⟩
      | switch hOption _ =>
          obtain ⟨q, hFound, rfl, hSwitch⟩ := hOption
          have hNamed := optionOf?_optionWord hSound.names hLong value
          rw [hWord, optionOf?_switchWord hSound.names hFound] at hNamed
          cases hNamed
          rw [hSwitch] at hTakes
          cases hTakes
  | letters hSome hLetters =>
      cases hLetters with
      | nil => exact absurd rfl hSome
      | cons hLetter _ =>
          rw [optionWord_eq] at hWord
          have hFirst := hLetter.ne_hyphen hSound.hyphen
          exact absurd (List.cons.inj hWord).2.symm (encode_ne_hyphen (by simpa using hFirst) _)

/-- Words that fill places are each read by one of them. -/
theorem Fills.exists_read {words : List Word} {filled : Given} (h : Fills places words filled) :
    ∀ word ∈ words, ∃ p ∈ places, ∃ d, p.arg.read word = .ok d := by
  induction words generalizing places filled with
  | nil => exact fun word hMem => by cases hMem
  | cons word words ih =>
      cases places with
      | nil => cases h
      | cons p rest =>
          obtain ⟨d, later, hRead, hLater, rfl⟩ := fills_cons_iff.1 h
          rintro next hMem
          rcases List.mem_cons.1 hMem with rfl | hBehind
          · exact ⟨p, .head _, d, hRead⟩
          · obtain ⟨q, hPlace, hValue⟩ := ih hLater next hBehind
            exact ⟨q, p.behind_subset rest hPlace, hValue⟩

/-- A piece that is read is of options, or a word for the first place, or the separator with all that
follows. -/
theorem Reads.cons_cases {piece : List Word} {ps : List (List Word)}
    (h : l.Reads places (piece :: ps) given) :
    (∃ entries later, l.Spells piece entries ∧ l.Reads places ps later ∧ given = entries ++ later) ∨
    (∃ p rest word d later, places = p :: rest ∧ piece = [word] ∧ (∀ b body, word ≠ 45 :: b :: body) ∧
      p.arg.read word = .ok d ∧ l.Reads (p.behind rest) ps later ∧ given = (p.arg, d) :: later) ∨
    ∃ words, piece = CommandLine.separator :: words ∧ Fills places words given := by
  generalize hAll : piece :: ps = all at h
  cases h with
  | nothing => cases hAll
  | option hSpells hRest =>
      cases hAll
      exact .inl ⟨_, _, hSpells, hRest, rfl⟩
  | place hPlain hRead hRest =>
      cases hAll
      exact .inr (.inl ⟨_, _, _, _, _, rfl, rfl, hPlain, hRead, hRest, rfl⟩)
  | separator hFills =>
      cases hAll
      exact .inr (.inr ⟨_, rfl, hFills⟩)

/-- Pieces that are made from a value of an option, and what they give: the value gives its part, and
another one that can be read gives that in its place. -/
def Exchanges (l : Level) (o : OptionSpec) (value : Word) (places : List PositionalSpec)
    (pieces : Word → List (List Word)) (given : Given) : Prop :=
  ∃ g₁ d g₂, o.arg.read value = .ok d ∧ given = g₁ ++ (o.arg, d) :: g₂ ∧
    ∀ {next : Word} {e : Datum}, o.arg.read next = .ok e →
      l.Reads places (pieces next) (g₁ ++ (o.arg, e) :: g₂)

section Exchanges

variable {ps : Word → List (List Word)}

private theorem Exchanges.option {piece : List Word} {entries : Given}
    (h : l.Exchanges o value places ps given) (hSpells : l.Spells piece entries) :
    l.Exchanges o value places (fun next => piece :: ps next) (entries ++ given) := by
  obtain ⟨g₁, d, g₂, hRead, rfl, hOther⟩ := h
  refine ⟨entries ++ g₁, d, g₂, hRead, by simp, fun {next e} hNext => ?_⟩
  rw [List.append_assoc]
  exact .option hSpells (hOther hNext)

private theorem Exchanges.place {p : PositionalSpec} {rest : List PositionalSpec} {word : Word} {d : Datum}
    (h : l.Exchanges o value (p.behind rest) ps given) (hPlain : ∀ b body, word ≠ 45 :: b :: body)
    (hWord : p.arg.read word = .ok d) :
    l.Exchanges o value (p :: rest) (fun next => [word] :: ps next) ((p.arg, d) :: given) := by
  obtain ⟨g₁, e, g₂, hRead, rfl, hOther⟩ := h
  exact ⟨(p.arg, d) :: g₁, e, g₂, hRead, rfl, fun hNext => .place hPlain hWord (hOther hNext)⟩

/-- The word of the option with its value, in front of other pieces. -/
private theorem exchanges_cons (hSound : l.IsSound) (hLong : l.long? long = some o)
    (hTakes : o.valueName?.isSome) {behind : List (List Word)}
    (h : l.Reads places ([optionWord long value] :: behind) given) :
    l.Exchanges o value places (fun next => [optionWord long next] :: behind) given := by
  obtain ⟨entries, later, hSpells, hRest, rfl⟩ |
    ⟨_, _, word, _, _, _, hPiece, hPlain, _⟩ | ⟨words, hPiece, _⟩ := h.cons_cases
  · obtain ⟨d, hRead, rfl⟩ := hSpells.eq_of_optionWord hSound hLong hTakes
    refine ⟨[], d, later, hRead, rfl, fun {next e} hNext => ?_⟩
    show l.Reads places ([optionWord long next] :: behind) ([(o.arg, e)] ++ later)
    exact .option (.word (.value ⟨o, hLong, rfl, hTakes⟩ hNext)) hRest
  · rw [List.cons.injEq] at hPiece
    exact absurd (hPiece.1.symm.trans (optionWord_eq long value)) (hPlain _ _)
  · exact absurd (List.cons.inj hPiece).1 (optionWord_ne_separator long value)

end Exchanges

/-- **Another value of an option may stand in its place.** Where a word that gives an option its value is
read, and fills no place, it gives the value, and with another value in it all other words are read as
before. -/
theorem Reads.exchange (hSound : l.IsSound) (hLong : l.long? long = some o)
    (hTakes : o.valueName?.isSome) {front back : List Word}
    (hPlaces : ∀ p ∈ places, ∀ d, p.arg.read (optionWord long value) ≠ .ok d)
    (h : l.Reads places (l.pieces (front ++ optionWord long value :: back)) given) :
    l.Exchanges o value places (fun next => l.pieces (front ++ optionWord long next :: back)) given := by
  have hAlone : ∀ (word : Word) (rest : List Word),
      l.pieces (optionWord long word :: rest) = [optionWord long word] :: l.pieces rest :=
    fun word rest => pieces_single (optionWord_ne_separator long word)
      (opens_optionWord hSound.names hLong word) rest
  fun_induction l.pieces front generalizing places given with
  | case1 =>
      simp only [List.nil_append, hAlone] at h ⊢
      exact exchanges_cons hSound hLong hTakes h
  | case2 rest =>
      rw [List.cons_append, pieces_separator] at h
      obtain ⟨entries, later, hSpells, -⟩ | ⟨_, _, word, _, _, _, hPiece, -⟩ | ⟨words, hPiece, hFills⟩ :=
        h.cons_cases
      · exact absurd rfl (hSpells.opens_eq hSound).1
      · simp at hPiece
      · cases hPiece
        obtain ⟨p, hPlace, d, hRead⟩ := hFills.exists_read (optionWord long value) (by simp)
        exact absurd hRead (hPlaces p hPlace d)
  | case3 word hOther hOpens =>
      -- The option would be the value of the one in front of it, but looks like an option.
      rw [List.singleton_append, pieces_opens hOther hOpens] at h
      obtain ⟨entries, later, hSpells, -⟩ | ⟨_, _, _, _, _, _, hPiece, -⟩ | ⟨words, hPiece, -⟩ :=
        h.cons_cases
      · generalize hValue : optionWord long value = next at hSpells
        cases hSpells with
        | apart _ _ hPlain => exact absurd (hValue.symm.trans (optionWord_eq long value)) (hPlain _ _)
      · simp at hPiece
      · exact absurd (List.cons.inj hPiece).1 hOther
  | case4 word hOther hOpens word' others ih =>
      simp only [List.cons_append, pieces_opens hOther hOpens] at h ⊢
      obtain ⟨entries, later, hSpells, hRest, rfl⟩ | ⟨_, _, _, _, _, _, hPiece, -⟩ |
        ⟨words, hPiece, -⟩ := h.cons_cases
      · exact (ih hPlaces hRest).option hSpells
      · simp at hPiece
      · exact absurd (List.cons.inj hPiece).1 hOther
  | case5 word rest hOther hOpens ih =>
      have hSingle : l.opens word = false := by simpa using hOpens
      simp only [List.cons_append, pieces_single hOther hSingle] at h ⊢
      obtain ⟨entries, later, hSpells, hRest, rfl⟩ |
        ⟨p, left, _, d, later, rfl, hPiece, hPlain, hWord, hRest, rfl⟩ | ⟨words, hPiece, -⟩ := h.cons_cases
      · exact (ih hPlaces hRest).option hSpells
      · cases hPiece
        exact (ih (fun q hq => hPlaces q (p.behind_subset left hq)) hRest).place hPlain hWord
      · exact absurd (List.cons.inj hPiece).1 hOther

/-- A word behind two hyphens in the words of an option names the option. -/
theorem Spells.exists_option (hSound : l.IsSound) {piece : List Word} {entries : Given}
    (h : l.Spells piece entries) {body : Word} (hMem : 45 :: 45 :: body ∈ piece) :
    (l.optionOf? (45 :: 45 :: body)).isSome := by
  cases h with
  | word hSays =>
      rw [List.mem_singleton.1 hMem]
      cases hSays with
      | value hOption _ =>
          obtain ⟨o, hLong, -⟩ := hOption
          rw [optionOf?_optionWord hSound.names hLong]
          rfl
      | switch hOption _ =>
          obtain ⟨o, hLong, -⟩ := hOption
          rw [optionOf?_switchWord hSound.names hLong]
          rfl
  | apart hOption _ hValue =>
      rcases List.mem_cons.1 hMem with hWord | hBehind
      · obtain ⟨o, hLong, -⟩ := hOption
        rw [hWord, optionOf?_switchWord hSound.names hLong]
        rfl
      · exact absurd (List.mem_singleton.1 hBehind).symm (hValue 45 body)
  | letters hSome hLetters =>
      cases hLetters with
      | nil => exact absurd rfl hSome
      | cons hLetter _ =>
          have hFirst := hLetter.ne_hyphen hSound.hyphen
          have hWord := List.mem_singleton.1 hMem
          exact absurd (List.cons.inj hWord).2.symm (encode_ne_hyphen (by simpa using hFirst) body)

/-- A word behind two hyphens in front of the command word names an option. -/
theorem Gives.exists_option (hSound : l.IsSound) {words : List Word} (h : l.Gives words given) {body : Word}
    (hMem : 45 :: 45 :: body ∈ words) : (l.optionOf? (45 :: 45 :: body)).isSome := by
  obtain ⟨ps, gs, hSpells, rfl, -⟩ := h
  obtain ⟨piece, hPiece, hWord⟩ := List.mem_flatten.1 hMem
  obtain ⟨entries, hEntries⟩ := Text.exists_forall₂_iff.1 ⟨gs, hSpells⟩ piece hPiece
  exact hEntries.exists_option hSound hWord

/-- What was given once was given once with other values. -/
theorem Once.of_args {g h : Given} (hArgs : h.map (·.1) = g.map (·.1)) (hOnce : l.Once g) : l.Once h := by
  have hLength : ∀ (k : Given) (a : Arg), (k.values a).length = (k.map (·.1)).count a := by
    intro k a
    rw [Given.values, List.length_map, List.count_eq_countP, List.countP_map, List.countP_eq_length_filter]
    congr 1
  intro a hRepeats
  rw [hLength, hArgs, ← hLength]
  exact hOnce a hRepeats

end Level

/-! ## Commands with a type -/

namespace Given

variable {g h : Given} {c : CommandName} {command : Command} {t : TaskType}

/-- The same arguments are given with other values as well. -/
theorem has_of_args (hArgs : h.map (·.1) = g.map (·.1)) (a : Arg) : h.has a = g.has a := by
  rw [Bool.eq_iff_iff, ← not_iff_not, Bool.not_eq_true, Bool.not_eq_true, has_eq_false_iff, hArgs,
    has_eq_false_iff]

/-- Options that exclude each other are given with other values as well. -/
theorem clashes_of_args (hArgs : h.map (·.1) = g.map (·.1)) (hClashes : h.Clashes) : g.Clashes :=
  fun a ha => (has_of_args hArgs a).symm.trans (hClashes a ha)

/-- A type that was given once is the type. -/
theorem type?_of_once {g₁ g₂ : Given}
    (hLength : (Given.values (g₁ ++ (.type, .type t) :: g₂) .type).length ≤ 1) :
    Given.type? (g₁ ++ (.type, .type t) :: g₂) = some t := by
  have hValues : Given.values (g₁ ++ (.type, .type t) :: g₂) .type =
      g₁.values .type ++ .type t :: g₂.values .type := by
    rw [List.append_cons, values_append, values_append, values_singleton, if_pos rfl, List.append_assoc,
      List.singleton_append]
  rw [hValues, List.length_append, List.length_cons] at hLength
  have hNone : g₁.values .type = [] := List.length_eq_zero_iff.1 (by omega)
  rw [Given.type?, value?_eq_head?, hValues, hNone]
  rfl

/-- The type of a command is the one that was given. -/
theorem type?_of_command (hCommand : g.command c = .ok command) (hType : command.type? = some t) :
    (c = .record ∨ c = .define) ∧ g.type? = some t := by
  cases c with
  | record =>
      rw [Given.command] at hCommand
      split at hCommand
      · cases hCommand
        exact ⟨.inl rfl, hType⟩
      · cases hCommand
  | define =>
      cases hCommand
      exact ⟨.inr rfl, hType⟩
  | _ =>
      cases hCommand
      cases hType

/-- With another type, what was given makes a command of that type. -/
theorem exists_command (hCommand : g.command c = .ok command) (hTyped : c = .record ∨ c = .define)
    (hMode : h.value? .mode = g.value? .mode) (hType : h.type? = some t) :
    ∃ other, h.command c = .ok other ∧ other.type? = some t := by
  rcases hTyped with rfl | rfl
  · rw [Given.command] at hCommand ⊢
    rw [hMode]
    split at hCommand
    · exact ⟨_, rfl, hType⟩
    · cases hCommand
  · exact ⟨_, rfl, hType⟩

end Given

/-! ## The option in its place -/

/-- The levels that have the option, and no place for its word. -/
theorem exists_typeOption {c : CommandName} (h : c = .record ∨ c = .define) (s : String) :
    (∃ o, (Level.ofCommand c).long? "type" = some o ∧ o.arg = .type ∧ o.valueName?.isSome) ∧
      ¬(Level.ofCommand c).Repeats .type ∧
      ∀ p ∈ (Level.ofCommand c).positionals, ∀ d, p.arg.read (typeWord s) ≠ .ok d := by
  rcases h with rfl | rfl
  · refine ⟨⟨_, rfl, rfl, rfl⟩, by decide, fun p hPlace d hRead => ?_⟩
    obtain rfl : p = recordMode := List.mem_singleton.1 hPlace
    obtain ⟨m, hMode, -⟩ := map_eq_ok_iff.1
      (show (readChoice RecordMode.ofName? (typeWord s)).map Datum.mode = .ok d from hRead)
    unfold readChoice at hMode
    split at hMode
    · next mode hChoice =>
        obtain ⟨text, hText, hName⟩ := Option.bind_eq_some_iff.1 hChoice
        have hSame : mode.name = text := by simpa using List.find?_some hName
        have hWord := Text.Utf8.bytes_of_text? hText
        rw [← hSame, typeWord, Level.optionWord_eq] at hWord
        cases mode <;> cases hWord
    · cases hMode
  · exact ⟨⟨_, rfl, rfl, rfl⟩, by decide, fun p hPlace => by cases hPlace⟩

/-- A task type is read by the words that choose it. -/
theorem read_type_iff {s : String} {d : Datum} :
    Arg.type.read (Text.Utf8.bytes s) = .ok d ↔ ∃ t, TaskType.ofChoice? s = some t ∧ d = .type t := by
  show (readChoice TaskType.ofChoice? (Text.Utf8.bytes s)).map Datum.type = .ok d ↔ _
  rw [readChoice, Text.Utf8.text?_bytes, Option.bind_some]
  cases TaskType.ofChoice? s with
  | none => simp [Except.map]
  | some t => simp [Except.map, eq_comm]

/-- In front of the command word the option is not known. -/
theorem typeWord_not_mem {words : List Word} {given : Given} (h : Level.top.Gives words given) (s : String) :
    typeWord s ∉ words := by
  intro hMem
  rw [typeWord, Level.optionWord_eq] at hMem
  have hFound := h.exists_option (Level.isSound none) hMem
  have hPlain : ∀ b ∈ Text.Utf8.bytes "type", b ≠ 61 := by decide +kernel
  rw [Level.optionOf?, Level.nameAndValue_append hPlain, Text.Utf8.text?_bytes] at hFound
  cases hFound

/-- A line that is read around the option has its command word in front of it. -/
theorem exists_command_of_typeWord {before after front back : List Word} {c : CommandName} {given : Given}
    {s : String} (hGives : Level.top.Gives front given)
    (h : before ++ typeWord s :: after = front ++ Text.Utf8.bytes c.name :: back) :
    ∃ middle, before = front ++ Text.Utf8.bytes c.name :: middle ∧ back = middle ++ typeWord s :: after := by
  have hOther : typeWord s ≠ Text.Utf8.bytes c.name := by
    rw [typeWord, Level.optionWord_eq]
    cases c <;> exact fun hWord => by cases hWord
  rcases List.append_eq_append_iff.1 h with ⟨words, rfl, hRest⟩ | ⟨words, rfl, hRest⟩
  · cases words with
    | nil => exact absurd (List.cons.inj hRest).1 hOther
    | cons word words =>
        cases hRest
        exact absurd (by simp) (typeWord_not_mem hGives s)
  · cases words with
    | nil => exact absurd (List.cons.inj hRest).1.symm hOther
    | cons word words =>
        cases hRest
        exact ⟨words, rfl, rfl⟩

/-- Where the option is read behind its command word it gives the type that its value chooses, and with any
other choice in its place that type is given instead and nothing else changes. -/
theorem readWords_typeWord {env : Environment} {c : CommandName}
    (hTyped : c = .record ∨ c = .define) {front back : List Word} {s : String} {given : Given}
    (h : (Level.ofCommand c).readWords env (front ++ typeWord s :: back) = .ok given) :
    ∃ g₁ t g₂, TaskType.ofChoice? s = some t ∧ given = g₁ ++ (.type, .type t) :: g₂ ∧
      given.type? = some t ∧
      ∀ {name u}, TaskType.ofChoice? name = some u →
        (Level.ofCommand c).readWords env (front ++ typeWord name :: back) =
          .ok (g₁ ++ (.type, .type u) :: g₂) ∧
        Given.type? (g₁ ++ (.type, .type u) :: g₂) = some u := by
  have hSound : (Level.ofCommand c).IsSound := Level.isSound (some c)
  obtain ⟨⟨o, hLong, hArg, hTakes⟩, hRepeats, hPlaces⟩ := exists_typeOption hTyped s
  obtain ⟨hReads, hOnce, hServes, hFree⟩ := (Level.readWords_eq_ok_iff hSound).1 h
  obtain ⟨g₁, d, g₂, hValue, rfl, hExchange⟩ := hReads.exchange hSound hLong hTakes hPlaces
  rw [hArg] at hValue hExchange hOnce hServes hFree
  obtain ⟨t, hFound, rfl⟩ := read_type_iff.1 hValue
  rw [hArg]
  refine ⟨g₁, t, g₂, hFound, rfl, Given.type?_of_once (hOnce .type hRepeats), fun {name u} hName => ?_⟩
  have hArgs : (g₁ ++ (Arg.type, Datum.type u) :: g₂).map (·.1) =
      (g₁ ++ (Arg.type, Datum.type t) :: g₂).map (·.1) := by simp
  have hOnceToo := hOnce.of_args hArgs
  refine ⟨(Level.readWords_eq_ok_iff hSound).2 ⟨hExchange (read_type_iff.2 ⟨u, hName, rfl⟩), hOnceToo,
    hServes.imp_left (Given.has_of_args hArgs .url).trans,
    fun hClashes => hFree (Given.clashes_of_args hArgs hClashes)⟩, ?_⟩
  exact Given.type?_of_once (hOnceToo .type hRepeats)

/-- **What is taken for a type in some place is chosen there**, and every word that chooses a type is taken
for it in the same place. -/
theorem takesType_of_takesType {env : Environment} {before after : List Word} {s : String} {t : TaskType}
    (h : TakesType env before after s t) :
    TaskType.ofChoice? s = some t ∧
      ∀ {name u}, TaskType.ofChoice? name = some u → TakesType env before after name u := by
  obtain ⟨i, hRead, hType⟩ := h
  obtain ⟨front, c, back, g, hWords, hGives, hOnce⟩ := exists_gives_of_read hRead
  obtain ⟨middle, rfl, rfl⟩ := exists_command_of_typeWord hGives hWords
  have hLine : ∀ name, front ++ Text.Utf8.bytes c.name :: middle ++ typeWord name :: after =
      front ++ Text.Utf8.bytes c.name :: (middle ++ typeWord name :: after) := by simp
  rw [hLine, read_eq_ok_iff hGives hOnce] at hRead
  obtain ⟨hServes, hApart, given, command, hBehind, hCommand, rfl⟩ := hRead
  obtain ⟨hTyped, hGiven⟩ := Given.type?_of_command hCommand hType
  obtain ⟨g₁, found, g₂, hFound, rfl, hSame, hOthers⟩ := readWords_typeWord hTyped hBehind
  rw [hGiven] at hSame
  cases hSame
  refine ⟨hFound, fun {name u} hName => ?_⟩
  obtain ⟨hBehindToo, hGivenToo⟩ := hOthers hName
  have hMode : Given.value? (g₁ ++ (.type, .type u) :: g₂) .mode =
      Given.value? (g₁ ++ (.type, .type t) :: g₂) .mode := by
    simp [Given.value?, List.find?_append]
  obtain ⟨other, hOther, hOtherType⟩ := Given.exists_command hCommand hTyped hMode hGivenToo
  refine ⟨⟨settingsOf env g (g₁ ++ (.type, .type u) :: g₂), other⟩, ?_, hOtherType⟩
  rw [hLine]
  exact (read_eq_ok_iff hGives hOnce).2 ⟨hServes, hApart, _, other, hBehindToo, hOther, rfl⟩

/-- **Which values of the option are taken for which type**, in any command line that has a place for it. -/
theorem takesType_iff {env : Environment} {before after : List Word} (h : IsTypePlace env before after)
    {s : String} {t : TaskType} : TakesType env before after s t ↔ TaskType.ofChoice? s = some t := by
  constructor
  · intro hTakes
    exact (takesType_of_takesType hTakes).1
  · intro hChoice
    obtain ⟨name, u, hTakes⟩ := h
    exact (takesType_of_takesType hTakes).2 hChoice

end CommandLine

end ControlClient
