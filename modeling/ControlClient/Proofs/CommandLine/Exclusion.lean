import ControlClient.Proofs.CommandLine.Placement

/-!
# Options that exclude each other

The option for JSON and the option for a format exclude each other, but each level looks for the two among
its own options only. So a command line that is read without either of them is rejected with both if they
stand in one level, and else it is read: the option for JSON then wins, and the format that was asked for
by name has no effect (`read_both`).

Leaving out the pieces of an option leaves out what they give and nothing else, so what the whole command
line gives is put together from what is left without the one option and without the other.

## Main results

* `Line.words_without`: a command line without the pieces of an option.
* `read_both`: a command line with both options.
-/

namespace ControlClient.CommandLine

/-! ## Without an argument -/

/-- What was given without one argument. -/
def Given.without (g : Given) (a : Arg) : Given := g.filter fun e => !decide (e.1 = a)

theorem Given.values_without (g : Given) {a b : Arg} (h : b ≠ a) :
    (g.without a).values b = g.values b := by
  rw [Given.without, Given.values_filter (fun c => !decide (c = a)), if_pos (by simpa using h)]

theorem Given.values_without_self (g : Given) (a : Arg) : (g.without a).values a = [] := by
  rw [Given.without, Given.values_filter (fun c => !decide (c = a)), if_neg (by simp)]

/-- What is left of what was given once was given once. -/
theorem Level.Once.without {l : Level} {g : Given} (h : l.Once g) (a : Arg) : l.Once (g.without a) := by
  intro b hRepeats
  by_cases hSame : b = a
  · rw [hSame, Given.values_without_self]
    exact Nat.zero_le 1
  · rw [Given.values_without g hSame]
    exact h b hRepeats

/-- The option for JSON does not give the address. -/
theorem Environment.serves_without_json {env : Environment} {g : Given} :
    env.Serves (g.without .json) ↔ env.Serves g := by
  rw [Environment.Serves, Environment.Serves, Given.has_eq_isEmpty, Given.has_eq_isEmpty,
    Given.values_without g (by decide)]

/-- Without the option for JSON all other settings are the same. -/
theorem settingsOf_without_json (env : Environment) {g h : Given}
    (hJson : g.has .json = true ∨ h.has .json = true) :
    settingsOf env g h =
      { settingsOf env (g.without .json) (h.without .json) with json := true } := by
  have hValue : ∀ (k : Given) {a : Arg}, a ≠ .json → (k.without .json).value? a = k.value? a := by
    intro k a ha
    rw [Given.value?_eq_head?, Given.value?_eq_head?, Given.values_without k ha]
  have hDebug : ∀ k : Given, (k.without .json).has .debug = k.has .debug := by
    intro k
    rw [Given.has_eq_isEmpty, Given.has_eq_isEmpty, Given.values_without k (by decide)]
  have hUrl : Arg.url ≠ .json := by decide
  have hOutput : Arg.output ≠ .json := by decide
  simp only [settingsOf, hValue _ hUrl, hValue _ hOutput, hDebug]
  congr 1
  · simpa using hJson
  · split <;> rw [Given.values_without _ (by decide)]

namespace Line

/-- A command line without the pieces of an option. -/
def without (x : Line) (a : Arg) : Line where
  before := (x.ahead.filter (!Level.top.names (· = a) ·)).flatten
  command := x.command
  after := (x.behind.filter (!x.level.names (· = a) ·)).flatten

/-- Whether options that exclude each other stand in one level. -/
def Clashes (x : Line) : Prop :=
  (∀ a ∈ Level.exclusive, x.GivesAhead a) ∨ ∀ a ∈ Level.exclusive, x.GivesBehind a

instance (x : Line) : Decidable x.Clashes :=
  inferInstanceAs (Decidable
    ((∀ a ∈ Level.exclusive, x.GivesAhead a) ∨ ∀ a ∈ Level.exclusive, x.GivesBehind a))

variable {x : Line} {env : Environment} {g : Given} {a b : Arg}

theorem behind_without (x : Line) (a : Arg) :
    (x.without a).behind = x.behind.filter (!x.level.names (· = a) ·) :=
  Level.pieces_flatten_of_sublist List.filter_sublist

/-- Without an option the words in front of the command word give all else. -/
theorem gives_without (hGives : Level.top.Gives x.before g) (a : Arg) :
    Level.top.Gives (x.without a).before (g.without a) := by
  have hTop := Level.isSound none
  obtain ⟨gs, hGs, rfl⟩ := (Level.gives_iff hTop).1 hGives
  obtain ⟨-, ks, hKs, hFlat⟩ := Level.Spells.split hTop (· = a) hGs
  rw [Given.without, ← hFlat]
  exact ⟨_, ks, hKs, rfl, rfl⟩

/-- **What stands behind the command word is accepted** if it is without the one option and without the
other. -/
theorem reads_of_without (hOther : a ≠ b) (hGlobal : a.isGlobal) {h₁ h₂ : Given}
    (hReads₁ : x.level.Reads x.level.positionals (x.without a).behind h₁) (hOnce₁ : x.level.Once h₁)
    (hReads₂ : x.level.Reads x.level.positionals (x.without b).behind h₂) (hOnce₂ : x.level.Once h₂) :
    ∃ h : Given, x.level.Reads x.level.positionals x.behind h ∧ x.level.Once h ∧ h.without a = h₁ := by
  have hSound := isSound_level x
  have hPlaces : ∀ p ∈ x.level.positionals, decide (p.arg = a) = false := by
    intro p hp
    refine decide_eq_false ?_
    rintro rfl
    rw [hSound.isGlobal_place hp] at hGlobal
    cases hGlobal
  have hPieces : (x.without b).behind.filter (x.level.names (· = a)) =
      x.behind.filter (x.level.names (· = a)) := by
    rw [behind_without, List.filter_filter]
    refine List.filter_congr fun piece _ => ?_
    cases hArg : x.level.argOf? piece with
    | none => simp [Level.names, hArg]
    | some c =>
        by_cases hSame : c = a
        · subst hSame
          simp [Level.names, hArg, hOther]
        · simp [Level.names, hArg, hSame]
  obtain ⟨⟨ks, hKs, hFlat⟩, -⟩ := hReads₂.split hSound (P := (· = a)) hPlaces
  rw [hPieces] at hKs
  rw [behind_without] at hReads₁
  obtain ⟨h, hReads, hSome, hRest⟩ :=
    hReads₁.weave hSound hKs (Level.pieces_pairwise x.level x.after) hPlaces
  refine ⟨h, hReads, fun c hRepeats => ?_, hRest⟩
  by_cases hSame : c = a
  · subst hSame
    have hLeft := Given.values_filter (fun b => decide (b = c)) h c
    have hRight := Given.values_filter (fun b => decide (b = c)) h₂ c
    rw [if_pos (decide_eq_true rfl)] at hLeft hRight
    rw [← hLeft, hSome, hFlat, hRight]
    exact hOnce₂ c hRepeats
  · rw [← Given.values_without h hSame, Given.without, hRest]
    exact hOnce₁ c hRepeats

end Line

/-! ## Both options -/

/-- **Both options that exclude each other**, on a command line that is read without either of them. In
one level they are refused, with the name of one of them; in two levels the command line is read as
without the option for JSON, which wins over the format that was asked for by name. -/
theorem read_both (env : Environment) {x : Line} (hCut : x.IsCut)
    (hBoth : ∀ a ∈ Level.exclusive, x.GivesAhead a ∨ x.GivesBehind a) {i j : Invocation}
    (hNoJson : read env (x.without .json).words = .ok i)
    (hNoOutput : read env (x.without .output).words = .ok j) :
    (x.Clashes → ∃ o ∈ globalOptions, o.arg ∈ Level.exclusive ∧
      read env x.words = .error (.argument (.conflict o.form)) ∧
      (Rejection.argument (.conflict o.form)).exitCode = 2) ∧
    (¬x.Clashes → read env x.words = .ok { i with settings := { i.settings with json := true } } ∧
      Settings.format { i.settings with json := true } = .json) := by
  obtain ⟨g, hGives, hOnce⟩ := hCut
  have hSound := Line.isSound_level x
  obtain ⟨hAddress, -, h₁, command, hReads₁, hOnce₁, hAddressToo, -, hCommand, rfl⟩ :=
    (Line.read_words_eq_ok_iff (Line.gives_without hGives .json) (hOnce.without .json)).1 hNoJson
  obtain ⟨-, -, h₂, -, hReads₂, hOnce₂, -⟩ := (Line.read_words_eq_ok_iff
    (Line.gives_without hGives .output) (hOnce.without .output)).1 hNoOutput
  obtain ⟨h, hReads, hLater, rfl⟩ :=
    Line.reads_of_without (x := x) (a := .json) (b := .output) (by decide) rfl hReads₁ hOnce₁
      hReads₂ hOnce₂
  rw [Environment.serves_without_json] at hAddress hAddressToo
  have hMake : h.command x.command = .ok command := by
    refine (Given.command_congr (fun a hOwn => ?_) _).trans hCommand
    refine (Given.values_without h ?_).symm
    rintro rfl
    cases hOwn
  have hGlobal : ∀ a ∈ Level.exclusive, a.isGlobal = true := by decide
  have hAhead : (∀ a ∈ Level.exclusive, x.GivesAhead a) ↔ g.Clashes :=
    forall₂_congr fun a _ => Line.givesAhead_iff hGives a
  have hBehind : (∀ a ∈ Level.exclusive, x.GivesBehind a) ↔ h.Clashes :=
    forall₂_congr fun a ha => Line.givesBehind_iff hReads (hGlobal a ha)
  rw [Line.Clashes, hAhead, hBehind]
  constructor
  · intro hClashes
    by_cases hLevel : h.Clashes
    · obtain ⟨o, hShared, hExclusive, hRefused⟩ :=
        Level.readWords_of_clashes hSound hReads hLater hAddressToo hLevel
      refine ⟨o, hShared, hExclusive, ?_, rfl⟩
      rw [Line.words, read_of_gives hGives hOnce]
      rw [Line.level] at hRefused
      rw [hRefused]
      rfl
    · obtain ⟨hFree, -⟩ | ⟨-, o, hShared, hExclusive, hRefused⟩ :=
        Level.checkExclusive_cases (Level.isSound none) g
      · exact absurd (hClashes.resolve_right hLevel) hFree
      · refine ⟨o, hShared, hExclusive, ?_, rfl⟩
        have hWords := (Level.readWords_eq_ok_iff hSound).2 ⟨hReads, hLater, hAddressToo, hLevel⟩
        rw [Line.level] at hWords
        rw [Line.words, read_of_gives hGives hOnce, hWords]
        simp only [bind, Except.bind, hMake, Level.faulty, Except.mapError,
          Environment.check_eq_ok_iff.2 hAddress]
        rw [show Level.top.checkExclusive g = .error (.conflict o.form) from hRefused]
  · intro hFree
    rw [not_or] at hFree
    refine ⟨(Line.read_words_eq_ok_iff hGives hOnce).2
      ⟨hAddress, hFree.1, h, command, hReads, hLater, hAddressToo, hFree.2, hMake, ?_⟩, rfl⟩
    have hJson := hBoth .json (by decide)
    rw [Line.givesAhead_iff hGives, Line.givesBehind_iff hReads rfl] at hJson
    rw [settingsOf_without_json env hJson]

/-- Both options behind the command word, and one on either side of it. -/
theorem read_both_placements :
    let x : Line := ⟨[], .list, ["--json", "--output", "json"].map Text.Utf8.bytes⟩
    let y : Line := ⟨["--output=table"].map Text.Utf8.bytes, .version, ["--json"].map Text.Utf8.bytes⟩
    let i : Invocation := ⟨⟨defaultAddress, .table, false, 0⟩, .version⟩
    (x.IsCut ∧ (∀ a ∈ Level.exclusive, x.GivesAhead a ∨ x.GivesBehind a) ∧ x.Clashes ∧
      (∃ j, read ⟨none⟩ (x.without .json).words = .ok j) ∧
      (∃ j, read ⟨none⟩ (x.without .output).words = .ok j) ∧
      ∃ o ∈ globalOptions, o.arg ∈ Level.exclusive ∧
        read ⟨none⟩ x.words = .error (.argument (.conflict o.form))) ∧
    (y.IsCut ∧ (∀ a ∈ Level.exclusive, y.GivesAhead a ∨ y.GivesBehind a) ∧ ¬y.Clashes ∧
      read ⟨none⟩ (y.without .json).words = .ok i ∧
      (∃ j, read ⟨none⟩ (y.without .output).words = .ok j) ∧
      read ⟨none⟩ y.words = .ok { i with settings := { i.settings with json := true } }) := by
  intro x y i
  have hCutX : x.IsCut := ⟨[], ⟨[], [], .nil, rfl, rfl⟩, fun _ _ => Nat.zero_le 1⟩
  have hCutY : y.IsCut := by
    have hWords : y.before = [optionWord "output" (Text.Utf8.bytes "table")] := by decide +kernel
    have hOutput : Level.top.Spells [optionWord "output" (Text.Utf8.bytes "table")]
        [(.output, .format .table)] := .word (.value ⟨_, rfl, rfl, rfl⟩ (by decide +kernel))
    refine ⟨[(.output, .format .table)], ?_, fun a hRepeats => ?_⟩
    · exact ⟨_, _, .cons hOutput .nil, hWords, rfl⟩
    · cases a with
      | debug => exact absurd (by decide) hRepeats
      | _ => decide
  have hBothX : ∀ a ∈ Level.exclusive, x.GivesAhead a ∨ x.GivesBehind a := by decide +kernel
  have hBothY : ∀ a ∈ Level.exclusive, y.GivesAhead a ∨ y.GivesBehind a := by decide +kernel
  have hClash : x.Clashes := by decide +kernel
  have hFree : ¬y.Clashes := by decide +kernel
  have hFormatX : read ⟨none⟩ (x.without .json).words =
      .ok ⟨⟨defaultAddress, .json, false, 0⟩, .list none []⟩ := by decide +kernel
  have hShortX : read ⟨none⟩ (x.without .output).words =
      .ok ⟨⟨defaultAddress, .table, true, 0⟩, .list none []⟩ := by decide +kernel
  have hFormatY : read ⟨none⟩ (y.without .json).words = .ok i := by decide +kernel
  have hShortY : read ⟨none⟩ (y.without .output).words =
      .ok ⟨⟨defaultAddress, .table, true, 0⟩, .version⟩ := by decide +kernel
  obtain ⟨o, hShared, hExclusive, hRefused, -⟩ :=
    (read_both ⟨none⟩ hCutX hBothX hFormatX hShortX).1 hClash
  have hRead := ((read_both ⟨none⟩ hCutY hBothY hFormatY hShortY).2 hFree).1
  exact ⟨⟨hCutX, hBothX, hClash, ⟨_, hFormatX⟩, ⟨_, hShortX⟩, o, hShared, hExclusive, hRefused⟩,
    hCutY, hBothY, hFree, hFormatY, ⟨_, hShortY⟩, hRead⟩

/-- A format that is asked for by name behind the command word has no effect if the option for JSON stands
in front of it: both options are there, either of them alone is fine, and nothing is refused. -/
theorem read_overridden_format :
    let x : Line := ⟨["--json"].map Text.Utf8.bytes, .list,
      ["--output", "table", "tasks"].map Text.Utf8.bytes⟩
    let i : Invocation := ⟨⟨defaultAddress, .table, true, 0⟩, .list (some .tasks) []⟩
    x.words = ["--json", "list", "--output", "table", "tasks"].map Text.Utf8.bytes ∧
      (∀ a ∈ Level.exclusive, x.GivesAhead a ∨ x.GivesBehind a) ∧
      (∃ j, read ⟨none⟩ (x.without .json).words = .ok j) ∧
      (∃ j, read ⟨none⟩ (x.without .output).words = .ok j) ∧
      read ⟨none⟩ x.words = .ok i ∧ i.settings.output = .table ∧ i.settings.format = .json := by
  intro x i
  have hFormat : read ⟨none⟩ (x.without .json).words =
      .ok ⟨⟨defaultAddress, .table, false, 0⟩, .list (some .tasks) []⟩ := by decide +kernel
  have hShort : read ⟨none⟩ (x.without .output).words = .ok i := by decide +kernel
  exact ⟨by decide +kernel, by decide +kernel, ⟨_, hFormat⟩, ⟨_, hShort⟩, by decide +kernel, rfl, rfl⟩

end ControlClient.CommandLine
