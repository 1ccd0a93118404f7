import ControlClient.Proofs.CommandLine.Weaving
import Mathlib.Data.List.Perm.Basic

/-!
# Where options of all levels stand

An option that every level has can stand in front of the command word or behind it. What is read of a
command line are the options of all levels that both parts give together, in any order, and all else that
stands behind the command word (`Line.SameTogether`). So a command line in which each of those options
stands in one level only means the same if some of them are moved to the other level (`read_moved`).

## Main results

* `Line.exists_given_of_moved`: moving options moves what they give.
* `Line.url_eq`: where the address comes from.
* `read_moved`: options of all levels mean the same in front of the command word and behind it.
-/

namespace ControlClient.CommandLine

/-! ## Command lines -/

/-- A command line, cut at its command word. -/
structure Line where
  before : List Word
  command : CommandName
  after : List Word
deriving DecidableEq

namespace Line

section

variable (x : Line)

/-- The words of a command line. -/
def words : List Word := x.before ++ Text.Utf8.bytes x.command.name :: x.after

/-- The level of the words behind the command word. -/
def level : Level := Level.ofCommand x.command

/-- The pieces in front of the command word. -/
def ahead : List (List Word) := Level.top.pieces x.before

/-- The pieces behind the command word. -/
def behind : List (List Word) := x.level.pieces x.after

/-- In front of the command word stand options, in any spelling, and none of them twice but the one that
counts. -/
def IsCut : Prop := ∃ given, Level.top.Gives x.before given ∧ Level.top.Once given

/-- The pieces of options of all levels, wherever they stand. -/
def shared : List (List Word) :=
  x.ahead.filter (Level.top.names Arg.isGlobal) ++ x.behind.filter (x.level.names Arg.isGlobal)

/-- All other pieces. -/
def own : List (List Word) := x.behind.filter (!x.level.names Arg.isGlobal ·)

/-- Whether an option stands in front of the command word. -/
def GivesAhead (a : Arg) : Prop := ∃ piece ∈ x.ahead, Level.top.argOf? piece = some a

/-- Whether an option stands behind the command word. -/
def GivesBehind (a : Arg) : Prop := ∃ piece ∈ x.behind, x.level.argOf? piece = some a

/-- Each option of all levels stands in front of the command word only, or behind it only. -/
def AtOneLevel : Prop := ∀ o ∈ globalOptions, ¬(x.GivesAhead o.arg ∧ x.GivesBehind o.arg)

instance (a : Arg) : Decidable (x.GivesAhead a) :=
  inferInstanceAs (Decidable (∃ piece ∈ x.ahead, Level.top.argOf? piece = some a))

instance (a : Arg) : Decidable (x.GivesBehind a) :=
  inferInstanceAs (Decidable (∃ piece ∈ x.behind, x.level.argOf? piece = some a))

instance : Decidable x.AtOneLevel :=
  inferInstanceAs (Decidable (∀ o ∈ globalOptions, ¬(x.GivesAhead o.arg ∧ x.GivesBehind o.arg)))

/-- The word of the value of an option. -/
def valueOf? : List Word → Option Word
  | [45 :: 45 :: body] => (Level.nameAndValue body).2
  | [_, value] => some value
  | _ => none

/-- The address that a command line names. -/
def address? : Option String :=
  ((x.shared.find? (Level.top.argOf? · = some .url)).bind valueOf?).bind Text.Utf8.text?

end

/-- A command line with the same command word and the same other pieces, in the same order, in which the
pieces of options of all levels stand elsewhere. -/
structure Moved (x y : Line) : Prop where
  command : y.command = x.command
  own : y.own = x.own
  ahead : ∀ piece ∈ y.ahead, Level.top.names Arg.isGlobal piece = true
  shared : y.shared.Perm x.shared

variable {x y : Line} {env : Environment} {g h : Given} {i : Invocation}

/-- The table of the level behind the command word is sound. -/
theorem isSound_level (x : Line) : x.level.IsSound := Level.isSound (some x.command)

/-- A command line is read if both its parts are accepted and make a command, both can have the address,
and no options exclude each other in one part. -/
theorem read_words_eq_ok_iff (hGives : Level.top.Gives x.before g) (hOnce : Level.top.Once g) :
    read env x.words = .ok i ↔ env.Serves g ∧ ¬g.Clashes ∧ ∃ h command,
      x.level.Reads x.level.positionals x.behind h ∧ x.level.Once h ∧ env.Serves h ∧ ¬h.Clashes ∧
        h.command x.command = .ok command ∧ i = ⟨settingsOf env g h, command⟩ := by
  have hLevel : ∀ h, (Level.ofCommand x.command).readWords env x.after = .ok h ↔ _ :=
    fun h => Level.readWords_eq_ok_iff (isSound_level x)
  rw [words, read_eq_ok_iff hGives hOnce]
  simp only [hLevel, and_assoc, behind]

/-- **The pieces of options of all levels give what both parts give of them.** -/
theorem spells_shared (hGives : Level.top.Gives x.before g)
    (hReads : x.level.Reads x.level.positionals x.behind h) :
    ∃ ks, List.Forall₂ Level.top.Spells x.shared ks ∧
      ks.flatten = List.filter (·.1.isGlobal) (g ++ h) := by
  have hTop := Level.isSound none
  have hLevel := isSound_level x
  obtain ⟨gs, hGs, rfl⟩ := (Level.gives_iff hTop).1 hGives
  obtain ⟨⟨as, hAs, hAhead⟩, -⟩ := Level.Spells.split hTop Arg.isGlobal hGs
  obtain ⟨⟨bs, hBs, hBehind⟩, -⟩ :=
    hReads.split hLevel (P := Arg.isGlobal) fun p hp => hLevel.isGlobal_place hp
  have hNames : ∀ piece ∈ x.behind.filter (x.level.names Arg.isGlobal),
      x.level.names Arg.isGlobal piece = true := fun piece hp => (List.mem_filter.1 hp).2
  have hEverywhere := (List.forall₂_and_left _ _).2 ⟨hNames, hBs⟩
  refine ⟨as ++ bs, List.rel_append hAs (hEverywhere.imp fun piece entries hPiece => ?_), ?_⟩
  · exact hPiece.2.of_isGlobal hLevel hTop hPiece.1
  · rw [List.flatten_append, List.filter_append, hAhead, hBehind]

/-- The two parts of what some pieces give. -/
private theorem exists_append_of_forall₂ {α β : Type} {R : α → β → Prop} {as bs : List α} {cs : List β}
    (h : List.Forall₂ R (as ++ bs) cs) :
    ∃ ds es, cs = ds ++ es ∧ List.Forall₂ R as ds ∧ List.Forall₂ R bs es :=
  ⟨cs.take as.length, cs.drop as.length, (List.take_append_drop _ _).symm,
    (List.forall₂_take_append cs as bs h.flip).flip, (List.forall₂_drop_append cs as bs h.flip).flip⟩

/-- Two pairs of parts that give the same together: the options of all levels in any order, and behind
the command word the same of all else. -/
structure SameTogether (g h g' h' : Given) : Prop where
  shared : (List.filter (·.1.isGlobal) (g' ++ h')).Perm (List.filter (·.1.isGlobal) (g ++ h))
  own : h'.filter (!·.1.isGlobal) = h.filter (!·.1.isGlobal)

/-- **Moving options of all levels moves what they give**, and nothing else. -/
theorem exists_given_of_moved (hMoved : x.Moved y) (hGives : Level.top.Gives x.before g)
    (hReads : x.level.Reads x.level.positionals x.behind h) :
    ∃ g' h', Level.top.Gives y.before g' ∧ y.level.Reads y.level.positionals y.behind h' ∧
      SameTogether g h g' h' := by
  have hTop := Level.isSound none
  have hLevel := isSound_level x
  have hSame : y.level = x.level := by rw [level, level, hMoved.command]
  have hPlaces : ∀ p ∈ x.level.positionals, p.arg.isGlobal = false :=
    fun p hp => hLevel.isGlobal_place hp
  obtain ⟨ks, hKs, hFlat⟩ := spells_shared hGives hReads
  obtain ⟨ms, hMs, hPerm⟩ := List.perm_comp_forall₂ hMoved.shared hKs
  obtain ⟨as, bs, rfl, hAs, hBs⟩ := exists_append_of_forall₂ hMs
  rw [List.filter_eq_self.2 hMoved.ahead] at hAs
  have hHere := hBs.imp fun piece entries hPiece =>
    hPiece.of_isGlobal hTop hLevel (Level.isGlobal_top hPiece).1
  have hOthers := (hReads.split hLevel (P := Arg.isGlobal) hPlaces).2
  rw [show x.behind.filter (!x.level.names Arg.isGlobal ·) = y.own from hMoved.own.symm, own, hSame]
    at hOthers
  rw [hSame] at hHere
  obtain ⟨h', hAll, hSome, hRest⟩ :=
    hOthers.weave hLevel hHere (Level.pieces_pairwise y.level y.after) hPlaces
  have hAhead : Level.top.Gives y.before as.flatten := (Level.gives_iff hTop).2 ⟨as, hAs, rfl⟩
  refine ⟨as.flatten, h', hAhead, by rwa [hSame], ?_, hRest⟩
  rw [List.filter_append, List.filter_eq_self.2 (Level.isGlobal_of_gives hAhead), hSome, ← hFlat,
    ← List.flatten_append]
  exact hPerm.flatten

/-! ## What both parts give -/

/-- An option stands in a part of a command line if the part gives it. -/
theorem givesAhead_iff (hGives : Level.top.Gives x.before g) (a : Arg) :
    x.GivesAhead a ↔ g.has a = true := by
  obtain ⟨gs, hGs, rfl⟩ := (Level.gives_iff (Level.isSound none)).1 hGives
  exact (Level.Spells.has_iff (Level.isSound none) hGs a).symm

theorem givesBehind_iff (hReads : x.level.Reads x.level.positionals x.behind h) {a : Arg}
    (hGlobal : a.isGlobal) : x.GivesBehind a ↔ h.has a = true :=
  (hReads.has_iff (isSound_level x) hGlobal).symm

/-- An option of all levels that only one part gives is given by that part alone. -/
theorem has_of_atOneLevel (hApart : x.AtOneLevel) (hGives : Level.top.Gives x.before g)
    (hReads : x.level.Reads x.level.positionals x.behind h) :
    ∀ o ∈ globalOptions, g.has o.arg = false ∨ h.has o.arg = false := by
  intro o hShared
  have hGlobal : o.arg.isGlobal := List.any_eq_true.2 ⟨o, hShared, decide_eq_true rfl⟩
  by_contra hBoth
  rw [not_or, Bool.not_eq_false, Bool.not_eq_false] at hBoth
  exact hApart o hShared
    ⟨(givesAhead_iff hGives _).2 hBoth.1, (givesBehind_iff hReads hGlobal).2 hBoth.2⟩

section SameTogether

variable {g' h' : Given} (hSame : SameTogether g h g' h')
include hSame

theorem SameTogether.perm_values {a : Arg} (hGlobal : a.isGlobal) :
    (Given.values (g' ++ h') a).Perm (Given.values (g ++ h) a) := by
  have hValues : ∀ k : Given, Given.values (k.filter (·.1.isGlobal)) a = k.values a := by
    intro k
    rw [Given.values_filter Arg.isGlobal, if_pos hGlobal]
  rw [← hValues (g' ++ h'), ← hValues (g ++ h)]
  exact (hSame.shared.filter _).map _

theorem SameTogether.has_eq {a : Arg} (hGlobal : a.isGlobal) :
    Given.has (g' ++ h') a = Given.has (g ++ h) a := by
  rw [Given.has_eq_isEmpty, Given.has_eq_isEmpty, (hSame.perm_values hGlobal).isEmpty_eq]

theorem SameTogether.values_own {a : Arg} (hOwn : a.isGlobal = false) : h'.values a = h.values a := by
  have hValues : ∀ k : Given, Given.values (k.filter (!·.1.isGlobal)) a = k.values a := by
    intro k
    rw [Given.values_filter (!Arg.isGlobal ·), if_pos (by simpa using hOwn)]
  rw [← hValues h', ← hValues h, hSame.own]

variable (hApart : ∀ o ∈ globalOptions, g.has o.arg = false ∨ h.has o.arg = false)
include hApart

/-- An option of all levels that does not count is given once by both parts together. -/
theorem SameTogether.length_values {l : Level} (hSound : l.IsSound) (hOnce : Level.top.Once g)
    (hLater : l.Once h) {a : Arg} (hGlobal : a.isGlobal) (hOther : a ≠ .debug) :
    (Given.values (g ++ h) a).length ≤ 1 ∧ (Given.values (g' ++ h') a).length ≤ 1 := by
  have hAhead := hOnce a ((Level.isSound none).not_repeats hGlobal hOther)
  have hBehind := hLater a (hSound.not_repeats hGlobal hOther)
  obtain ⟨o, hShared, hArg⟩ := List.any_eq_true.1 hGlobal
  obtain rfl : o.arg = a := by simpa using hArg
  have hLength : (Given.values (g ++ h) o.arg).length ≤ 1 := by
    rw [Given.values_append, List.length_append]
    rcases hApart o hShared with hNone | hNone
    · have hEmpty : g.values o.arg = [] := by simpa [Given.has_eq_isEmpty] using hNone
      rw [hEmpty, List.length_nil]
      omega
    · have hEmpty : h.values o.arg = [] := by simpa [Given.has_eq_isEmpty] using hNone
      rw [hEmpty, List.length_nil]
      omega
  exact ⟨hLength, by rwa [(hSame.perm_values hGlobal).length_eq]⟩

/-- **Parts that give the same together give nothing twice either.** -/
theorem SameTogether.once {l : Level} (hSound : l.IsSound) (hOnce : Level.top.Once g)
    (hLater : l.Once h) (hAhead : ∀ e ∈ g', e.1.isGlobal = true) :
    Level.top.Once g' ∧ l.Once h' := by
  have hShort : ∀ {m : Level} {a : Arg}, m.IsSound → ¬m.Repeats a → a.isGlobal →
      (Given.values g' a).length ≤ 1 ∧ (Given.values h' a).length ≤ 1 := by
    intro m a hSound' hRepeats hGlobal
    have hOther : a ≠ .debug := by
      rintro rfl
      exact hRepeats hSound'.counted
    have hLength := (hSame.length_values hApart hSound hOnce hLater hGlobal hOther).2
    rw [Given.values_append, List.length_append] at hLength
    omega
  constructor
  · intro a hRepeats
    cases hGlobal : a.isGlobal with
    | true => exact (hShort (Level.isSound none) hRepeats hGlobal).1
    | false =>
        have hNone : g'.values a = [] := by
          rw [Given.values, List.filter_eq_nil_iff.2, List.map_nil]
          intro e he hArg
          have hYes := hAhead e he
          rw [show e.1 = a by simpa using hArg, hGlobal] at hYes
          cases hYes
        rw [hNone]
        exact Nat.zero_le 1
  · intro a hRepeats
    cases hGlobal : a.isGlobal with
    | true => exact (hShort hSound hRepeats hGlobal).2
    | false =>
        rw [hSame.values_own hGlobal]
        exact hLater a hRepeats

/-- **Parts that give the same together make the same settings**, if each option of all levels is given
by one of them only. -/
theorem SameTogether.settings {l : Level} (hSound : l.IsSound) (hOnce : Level.top.Once g)
    (hLater : l.Once h)
    (hOther : ∀ o ∈ globalOptions, g'.has o.arg = false ∨ h'.has o.arg = false) (env : Environment) :
    settingsOf env g' h' = settingsOf env g h := by
  rw [Given.settingsOf_eq_append env hApart, Given.settingsOf_eq_append env hOther]
  refine Given.settingsOf_congr env (fun a hGlobal hArg => ?_) (hSame.perm_values rfl).length_eq
  exact Given.eq_of_perm_of_length_le (hSame.perm_values hGlobal)
    (hSame.length_values hApart hSound hOnce hLater hGlobal hArg).2

end SameTogether

/-! ## The address -/

/-- The value of the address is the text of its word. -/
private theorem text_of_read_url {value : Word} {d : Datum} (h : Arg.url.read value = .ok d) :
    ∃ u, d = .text u ∧ Text.Utf8.text? value = some u := by
  obtain ⟨u, hWord, rfl⟩ := map_eq_ok_iff.1 (show (readText value).map Datum.text = .ok d from h)
  refine ⟨u, rfl, ?_⟩
  unfold readText at hWord
  split at hWord
  · next hText => rw [hText, Except.ok.inj hWord]
  · cases hWord

/-- A piece that names the address gives the text of its value. -/
private theorem valueOf?_of_spells {piece : List Word} {entries : Given}
    (h : Level.top.Spells piece entries) (hUrl : Level.top.argOf? piece = some .url) :
    ∃ u, entries = [(.url, .text u)] ∧ (valueOf? piece).bind Text.Utf8.text? = some u := by
  have hTop := Level.isSound none
  have hArgs : ∀ e ∈ entries, e.1 = .url := by
    obtain ⟨o, -, hArg, -, -, hSame⟩ := h.argOf?_eq hTop
    rw [show Level.top.argOf? piece = some o.arg from hArg, Option.some.injEq] at hUrl
    rwa [hUrl] at hSame
  cases h with
  | word hSays =>
      cases hSays with
      | value hOption hRead =>
          obtain ⟨o, hLong, rfl, -⟩ := hOption
          rw [show o.arg = .url from hArgs _ (.head _)] at hRead ⊢
          obtain ⟨u, rfl, hText⟩ := text_of_read_url hRead
          refine ⟨u, rfl, ?_⟩
          rw [Level.optionWord_eq, valueOf?, Level.nameAndValue_append (hTop.names.of_long? hLong).2]
          exact hText
      | switch hOption _ =>
          obtain ⟨o, hLong, rfl, hSwitch⟩ := hOption
          have hTable : ∀ o ∈ (Level.of none).options, o.arg = .url → o.valueName?.isSome := by decide
          have hTakes := hTable o (List.mem_of_find?_eq_some hLong) (hArgs _ (.head _))
          rw [hSwitch] at hTakes
          cases hTakes
  | apart hOption hRead _ =>
      obtain ⟨o, -, rfl, -⟩ := hOption
      rw [show o.arg = .url from hArgs _ (.head _)] at hRead ⊢
      obtain ⟨u, rfl, hText⟩ := text_of_read_url hRead
      refine ⟨u, rfl, ?_⟩
      rw [Level.switchWord_eq]
      exact hText
  | letters hSome hLetters =>
      have hDebug := Level.arg_eq_of_letters hTop hLetters
      cases hLetters with
      | nil => exact absurd rfl hSome
      | cons _ _ =>
          have hBoth := (hArgs _ (.head _)).symm.trans (hDebug _ (.head _))
          cases hBoth

/-- The first piece that names the address gives the address. -/
private theorem address?_of_spells {ps : List (List Word)} {ks : List Given}
    (h : List.Forall₂ Level.top.Spells ps ks) :
    ((ps.find? (Level.top.argOf? · = some .url)).bind valueOf?).bind Text.Utf8.text? =
      (Given.value? ks.flatten .url).bind Datum.text? := by
  induction h with
  | nil => rfl
  | @cons piece entries ps ks hPiece _ ih =>
      rw [List.flatten_cons, List.find?_cons]
      by_cases hUrl : Level.top.argOf? piece = some .url
      · obtain ⟨u, rfl, hText⟩ := valueOf?_of_spells hPiece hUrl
        rw [decide_eq_true hUrl]
        exact hText
      · obtain ⟨o, -, hArg, -, -, hSame⟩ := hPiece.argOf?_eq (Level.isSound none)
        have hNone : Given.values entries .url = [] := by
          rw [Given.values, List.filter_eq_nil_iff.2, List.map_nil]
          intro e he hEq
          refine hUrl ?_
          rw [show Level.top.argOf? piece = some o.arg from hArg, ← hSame e he]
          simpa using hEq
        rw [decide_eq_false hUrl, Given.value?_eq_head?, Given.values_append, hNone, List.nil_append,
          ← Given.value?_eq_head?]
        exact ih

/-- **The address is the one that is named**, else the one of the environment, else the default. -/
theorem url_eq (hApart : ∀ o ∈ globalOptions, g.has o.arg = false ∨ h.has o.arg = false)
    (hGives : Level.top.Gives x.before g) (hReads : x.level.Reads x.level.positionals x.behind h) :
    (settingsOf env g h).url = (x.address?.or env.address?).getD defaultAddress := by
  obtain ⟨ks, hKs, hFlat⟩ := spells_shared hGives hReads
  have hValue : Given.value? ks.flatten .url = Given.value? (g ++ h) .url := by
    rw [hFlat, Given.value?_eq_head?, Given.value?_eq_head?, Given.values_filter Arg.isGlobal,
      if_pos (show Arg.url.isGlobal = true from rfl)]
  rw [address?, address?_of_spells hKs, hValue, Given.settingsOf_eq_append env hApart]
  simp [settingsOf, Given.value?]

end Line

/-! ## Moving options -/

/-- **An option of all levels means the same in front of the command word and behind it.** A command line
that is read has options in front of its command word. If each option of all levels stands in one level
only, and the two that exclude each other are not both given, then every command line in which some of
them stand elsewhere, again each in one level, is read as the same; and the address is the one that is
named, wherever it is, else the one of the environment, else the default. -/
theorem read_moved (env : Environment) {words : List Word} {i : Invocation}
    (hRead : read env words = .ok i) :
    (∃ x : Line, x.IsCut ∧ x.words = words) ∧
    ∀ x : Line, x.IsCut → x.words = words → x.AtOneLevel →
      ¬(∀ a ∈ Level.exclusive, x.GivesAhead a ∨ x.GivesBehind a) →
      i.settings.url = (x.address?.or env.address?).getD defaultAddress ∧
      ∀ y : Line, x.Moved y → y.AtOneLevel → read env y.words = .ok i := by
  constructor
  · obtain ⟨before, c, after, given, rfl, hGives, hOnce⟩ := exists_gives_of_read hRead
    exact ⟨⟨before, c, after⟩, ⟨given, hGives, hOnce⟩, rfl⟩
  rintro x ⟨g, hGives, hOnce⟩ rfl hApart hFormat
  obtain ⟨hAddress, -, h, command, hReads, hLater, hAddressToo, -, hCommand, rfl⟩ :=
    (Line.read_words_eq_ok_iff hGives hOnce).1 hRead
  have hPart := Line.has_of_atOneLevel hApart hGives hReads
  -- One of the levels does not give the address, so the variable has been read.
  have hText := Environment.isText_of_serves (hPart _ (.head _)) hAddress hAddressToo
  refine ⟨Line.url_eq hPart hGives hReads, fun y hMoved hOther => ?_⟩
  obtain ⟨g', h', hAhead, hBehind, hSame⟩ := Line.exists_given_of_moved hMoved hGives hReads
  have hOtherPart := Line.has_of_atOneLevel hOther hAhead hBehind
  have hSound := Line.isSound_level x
  obtain ⟨hOnceAhead, hOnceBehind⟩ :=
    hSame.once hPart hSound hOnce hLater (Level.isGlobal_of_gives hAhead)
  have hLevel : y.level = x.level := by rw [Line.level, Line.level, hMoved.command]
  have hFree : ¬Given.Clashes (g' ++ h') := by
    intro hClashes
    refine hFormat fun a ha => ?_
    have hTable : ∀ a ∈ Level.exclusive, a.isGlobal = true := by decide
    have hHas := hClashes a ha
    rw [hSame.has_eq (hTable a ha), Given.has_append, Bool.or_eq_true] at hHas
    exact hHas.imp (Line.givesAhead_iff hGives a).2 (Line.givesBehind_iff hReads (hTable a ha)).2
  refine (Line.read_words_eq_ok_iff hAhead hOnceAhead).2
    ⟨.inr hText, fun hClashes => hFree fun a ha => ?_, h', command, hBehind, by rwa [hLevel], .inr hText,
      fun hClashes => hFree fun a ha => ?_, ?_, ?_⟩
  · rw [Given.has_append, hClashes a ha, Bool.true_or]
  · rw [Given.has_append, hClashes a ha, Bool.or_true]
  · rw [hMoved.command, ← hCommand]
    exact Given.command_congr (fun a hOwn => hSame.values_own hOwn) _
  · rw [hSame.settings hPart hSound hOnce hLater hOtherPart]

/-- Three options change places with the command word, one of them into the middle of what stands behind
it; the address is the one that is named, not the one of the environment. -/
theorem read_moved_record :
    let env : Environment := ⟨some (Text.Utf8.bytes "http://other:1")⟩
    let x : Line := ⟨["--url", "http://h:1", "-dd"].map Text.Utf8.bytes, .record,
      ["query", "--json", "--type=batcher", "--query", "q"].map Text.Utf8.bytes⟩
    let y : Line := ⟨["--json"].map Text.Utf8.bytes, .record,
      ["query", "-dd", "--type=batcher", "--url", "http://h:1", "--query", "q"].map Text.Utf8.bytes⟩
    let i : Invocation := ⟨⟨"http://h:1", .table, true, 2⟩,
      .record ⟨.query, Given.defaultSpan, "", "", 1, "", "q", some .batch⟩⟩
    read env x.words = .ok i ∧ x.IsCut ∧ x.AtOneLevel ∧
      ¬(∀ a ∈ Level.exclusive, x.GivesAhead a ∨ x.GivesBehind a) ∧
      i.settings.url = (x.address?.or env.address?).getD defaultAddress ∧ x.address? = some "http://h:1" ∧
      x.Moved y ∧ y.AtOneLevel ∧ read env y.words = .ok i := by
  intro env x y i
  have hRead : read env x.words = .ok i := by decide +kernel
  have hApart : x.AtOneLevel := by decide +kernel
  have hFormat : ¬(∀ a ∈ Level.exclusive, x.GivesAhead a ∨ x.GivesBehind a) := by decide +kernel
  have hMoved : x.Moved y := ⟨rfl, by decide +kernel, by decide +kernel, by decide +kernel⟩
  have hOther : y.AtOneLevel := by decide +kernel
  have hCut : x.IsCut := by
    have hDetail : Level.top.Letter 'd' (.debug, .on) := ⟨_, rfl, by decide, rfl⟩
    have hWords : x.before = [[switchWord "url", Text.Utf8.bytes "http://h:1"],
        [45 :: Text.Utf8.encode ['d', 'd']]].flatten := by decide +kernel
    have hUrl : Level.top.Spells [switchWord "url", Text.Utf8.bytes "http://h:1"]
        [(.url, .text "http://h:1")] :=
      .apart ⟨_, rfl, rfl, rfl⟩ (by decide +kernel) fun b body =>
        Level.encode_ne_hyphen (by decide) (b :: body)
    have hLetters := Level.Spells.letters (by simp) (.cons hDetail (.cons hDetail .nil))
    refine ⟨[(.url, .text "http://h:1"), (.debug, .on), (.debug, .on)], ?_, ?_⟩
    · exact ⟨_, _, .cons hUrl (.cons hLetters .nil), hWords, rfl⟩
    · intro a hRepeats
      cases a with
      | debug => exact absurd (by decide) hRepeats
      | _ => decide
  obtain ⟨-, hLines⟩ := read_moved env hRead
  obtain ⟨hUrl, hMoving⟩ := hLines x hCut rfl hApart hFormat
  exact ⟨hRead, hCut, hApart, hFormat, hUrl, by decide +kernel, hMoved, hOther, hMoving y hMoved hOther⟩

end ControlClient.CommandLine
