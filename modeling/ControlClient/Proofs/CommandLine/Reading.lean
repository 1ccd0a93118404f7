import ControlClient.Proofs.CommandLine.Steps

/-!
# What a level accepts

The pieces of a level that are accepted, and what they give (`Reads`): options stand anywhere, each
positional word fills the next place, and the separator is followed by words for the places that are left.
The reader meets a piece word by word, notes what an argument gives only when the next one starts, and
finds in passing what was given twice; the relation knows none of this. Both accept the same words
(`readWords_eq_ok_iff`).

That the relation follows the reader is shown backwards: what is left to read settles in the end, so what
stood before it settled already. That the reader follows the relation is shown forwards, with what was
given so far as the invariant.

## Main results

* `reads_of_foldlM`, `foldlM_of_reads`: the reader against the relation, from any point of a level on.
* `readWords_eq_ok_iff`: the words behind the command word; `readWords_of_written`: those that are written
  plainly.
* `gives_of_readToCommand`: the words in front of it.
* `read_eq_ok_iff`: a whole command line.
-/

namespace ControlClient.CommandLine

/-- Whether options that exclude each other were given. -/
def Given.Clashes (g : Given) : Prop := ∀ a ∈ Level.exclusive, g.has a = true

instance (g : Given) : Decidable g.Clashes :=
  inferInstanceAs (Decidable (∀ a ∈ Level.exclusive, g.has a = true))

namespace Level

variable {l : Level} {s t u : Progress} {word : Word} (hSound : l.IsSound)
include hSound

/-! ## What is read is accepted -/

omit hSound in
/-- What the pieces of a level give, if these places are left. -/
inductive Reads (l : Level) : List PositionalSpec → List (List Word) → Given → Prop where
  | nothing (places : List PositionalSpec) : Reads l places [] []
  /-- Words of an option. -/
  | option {places : List PositionalSpec} {piece : List Word} {pieces : List (List Word)}
      {entries given : Given} (hSpells : l.Spells piece entries) (hRest : Reads l places pieces given) :
      Reads l places (piece :: pieces) (entries ++ given)
  /-- A positional word, which must not look like an option. -/
  | place {p : PositionalSpec} {rest : List PositionalSpec} {word : Word} {d : Datum}
      {pieces : List (List Word)} {given : Given} (hPlain : ∀ b body, word ≠ 45 :: b :: body)
      (hRead : p.arg.read word = .ok d) (hRest : Reads l (p.behind rest) pieces given) :
      Reads l (p :: rest) ([word] :: pieces) ((p.arg, d) :: given)
  /-- The separator, behind which every word is positional. -/
  | separator {places : List PositionalSpec} {words : List Word} {given : Given}
      (hFills : Fills places words given) : Reads l places [CommandLine.separator :: words] given

omit hSound in
/-- The first word fills the first place, and the others the places that are left behind it. -/
theorem fills_cons_iff {p : PositionalSpec} {rest : List PositionalSpec} {words : List Word}
    {filled : Given} : Fills (p :: rest) (word :: words) filled ↔
      ∃ d later, p.arg.read word = .ok d ∧ Fills (p.behind rest) words later ∧
        filled = (p.arg, d) :: later := by
  constructor
  · intro h
    cases h with
    | @one _ _ _ _ d later hOne hRead hRest =>
        refine ⟨d, later, hRead, ?_, rfl⟩
        rwa [PositionalSpec.behind, hOne, if_neg Bool.false_ne_true]
    | many hMany _ hRead =>
        rw [List.mapM_cons] at hRead
        obtain ⟨d, hFirst, hRest⟩ := bind_eq_ok_iff.1 hRead
        obtain ⟨data, hData, hAll⟩ := bind_eq_ok_iff.1 hRest
        cases hAll
        refine ⟨d, data.map (p.arg, ·), hFirst, ?_, rfl⟩
        rw [PositionalSpec.behind, if_pos hMany]
        cases words with
        | nil =>
            cases hData
            exact .nothing _
        | cons next words => exact .many hMany (by simp) hData
  · rintro ⟨d, later, hRead, h, rfl⟩
    unfold PositionalSpec.behind at h
    split at h
    · rename_i hMany
      have hAll : ∀ {data : List Datum}, words.mapM p.arg.read = .ok data →
          Fills (p :: rest) (word :: words) ((d :: data).map (p.arg, ·)) := by
        intro data hData
        refine .many hMany (by simp) ?_
        rw [List.mapM_cons, hRead, hData]
        rfl
      cases h with
      | nothing => exact hAll rfl
      | one hOne _ _ =>
          rw [hMany] at hOne
          cases hOne
      | many _ _ hData => exact hAll hData
    · rename_i hOne
      exact .one (by simpa using hOne) hRead h

omit hSound in
/-- **Words behind the separator that are read fill the places.** -/
theorem fills_of_foldlM {words : List Word} (hTrailing : s.trailing = true) (hAwaits : s.awaits = false)
    (hRead : words.foldlM (l.readWord · ·) s = .ok t) (hEnd : t.settle = .ok u) :
    ∃ given filled, s.settle = .ok ⟨given, none, s.places, true⟩ ∧ Fills s.places words filled ∧
      u.given = given ++ filled ∧ u.trailing = true := by
  induction words generalizing s with
  | nil =>
      cases hRead
      obtain ⟨g, rfl, -⟩ := Progress.settle_eq_ok_iff.1 hEnd
      rw [hTrailing] at hEnd ⊢
      exact ⟨g, [], hEnd, .nothing _, by simp, rfl⟩
  | cons word words ih =>
      rw [List.foldlM_cons] at hRead
      obtain ⟨v, hFirst, hRest⟩ := bind_eq_ok_iff.1 hRead
      rw [readWord_trailing l hTrailing] at hFirst
      obtain ⟨hNext, hSame⟩ := awaits_of_readPlace hFirst
      obtain ⟨g, filled, hSettle, hFills, hGiven, hLast⟩ := ih (hSame.trans hTrailing) hNext hRest
      obtain ⟨p, rest, given, d, hPlaces, hLeft, hBefore, hWord, rfl⟩ :=
        settle_of_readPlace hFirst hAwaits hSettle
      rw [hTrailing] at hBefore
      rw [hLeft] at hFills
      refine ⟨given, (p.arg, d) :: filled, hBefore, ?_, by simpa using hGiven, hLast⟩
      rw [hPlaces]
      exact fills_cons_iff.2 ⟨d, filled, hWord, hFills, rfl⟩

/-- **Behind an option that awaits its value comes the value**, if all is read in the end. -/
theorem value_of_step {o : OptionSpec} (hOption : o ∈ l.options) {given : Given}
    {places : List PositionalSpec} (hPlaces : ∀ p ∈ places, p ∈ l.positionals)
    (hStep : l.Step ⟨given, some ⟨o.arg, o.form, false, []⟩, places, false⟩ word s) {rest : List Word}
    (hRest : rest.foldlM (l.readWord · ·) s = .ok t) (hEnd : t.settle = .ok u) :
    (∀ b body, word ≠ 45 :: b :: body) ∧
      s = ⟨given, some ⟨o.arg, o.form, false, [word]⟩, places, false⟩ := by
  -- What awaits a value never settles.
  have hStuck : ∀ {trailing : Bool} {v : Progress},
      Progress.settle ⟨given, some ⟨o.arg, o.form, false, []⟩, places, trailing⟩ ≠ .ok v := by
    intro trailing v hSettle
    cases (settle_spec hSettle).2.2
  cases hStep with
  | separator =>
      cases rest with
      | nil =>
          cases hRest
          exact absurd hEnd hStuck
      | cons next rest =>
          rw [List.foldlM_cons] at hRest
          obtain ⟨v, hFirst, -⟩ := bind_eq_ok_iff.1 hRest
          rw [readWord_trailing l rfl] at hFirst
          obtain ⟨p, others, hLeft, ⟨hCollects, -⟩ | ⟨g, hSettle, -⟩⟩ := readPlace_eq_ok hFirst
          · obtain ⟨-, q, hPending, hArg, -⟩ := pending_of_collects next hCollects
            cases hPending
            have hPlace := hPlaces p (by rw [show places = p :: others from hLeft]; exact .head _)
            exact absurd hArg (hSound.places p hPlace o hOption)
          · exact absurd hSettle hStuck
  | option hSettle => exact absurd hSettle hStuck
  | opens hSettle => exact absurd hSettle hStuck
  | value hPlain => exact ⟨hPlain, rfl⟩
  | place _ hAwaits => cases hAwaits

/-- A word that opens an option does so. -/
theorem Step.of_opens (hStep : l.Step s word t) (hOther : word ≠ CommandLine.separator)
    (hOpens : l.opens word = true) :
    ∃ long o given, word = switchWord long ∧ l.long? long = some o ∧ o.valueName?.isSome ∧
      s.settle = .ok ⟨given, none, s.places, false⟩ ∧
      t = ⟨given, some ⟨o.arg, o.form, false, []⟩, s.places, false⟩ := by
  cases hStep with
  | separator => exact absurd rfl hOther
  | option _ hSpells _ =>
      rw [(hSpells.opens_eq hSound).2] at hOpens
      cases hOpens
  | @opens long o given hSettle hLong hTakes => exact ⟨long, o, given, rfl, hLong, hTakes, hSettle, rfl⟩
  | value hPlain =>
      rw [opens_plain hPlain] at hOpens
      cases hOpens
  | place hPlain =>
      rw [opens_plain hPlain] at hOpens
      cases hOpens

omit hSound in
/-- What is accepted from some point of a level on, if this is read in the end: what was given up to there,
and what the pieces give. The separator was met if all words were positional in the end. -/
def AcceptsBehind (l : Level) (s : Progress) (pieces : List (List Word)) (u : Progress) : Prop :=
  ∃ given later, s.settle = .ok ⟨given, none, s.places, false⟩ ∧ l.Reads s.places pieces later ∧
    u.given = given ++ later ∧ (u.trailing = false → ∀ piece ∈ pieces, piece.head? ≠ some separator)

omit hSound in
private theorem AcceptsBehind.settles {pieces : List (List Word)} (h : l.AcceptsBehind s pieces u) :
    ∃ given, s.settle = .ok ⟨given, none, s.places, false⟩ :=
  h.imp fun _ ⟨_, hSettle, _⟩ => hSettle

omit hSound in
/-- Words of an option give what is settled behind them more than in front of them. -/
private theorem AcceptsBehind.option {piece : List Word} {pieces : List (List Word)} {given entries : Given}
    (h : l.AcceptsBehind t pieces u) (hSettle : s.settle = .ok ⟨given, none, s.places, false⟩)
    (hNext : t.settle = .ok ⟨given ++ entries, none, s.places, false⟩) (hSpells : l.Spells piece entries)
    (hHead : piece.head? ≠ some separator) : l.AcceptsBehind s (piece :: pieces) u := by
  obtain ⟨g, later, hSettled, hReads, hGiven, hApart⟩ := h
  obtain ⟨rfl, hPlaces⟩ : given ++ entries = g ∧ s.places = t.places := by
    simpa using hNext.symm.trans hSettled
  rw [← hPlaces] at hReads
  exact ⟨given, entries ++ later, hSettle, .option hSpells hReads, by simpa using hGiven,
    fun hNot => List.forall_mem_cons.2 ⟨hHead, hApart hNot⟩⟩

omit hSound in
/-- A positional word fills the first place that is left. -/
private theorem AcceptsBehind.place {pieces : List (List Word)} (h : l.AcceptsBehind t pieces u)
    (hTrailing : s.trailing = false) (hAwaits : s.awaits = false) (hPlain : ∀ b body, word ≠ 45 :: b :: body)
    (hPlace : l.readPlace s word = .ok t) (hHead : [word].head? ≠ some separator) :
    l.AcceptsBehind s ([word] :: pieces) u := by
  obtain ⟨g, later, hSettled, hReads, hGiven, hApart⟩ := h
  obtain ⟨p, others, given, d, hPlaces, hLeft, hSettle, hWord, rfl⟩ :=
    settle_of_readPlace hPlace hAwaits hSettled
  rw [hTrailing] at hSettle
  rw [hLeft] at hReads
  refine ⟨given, (p.arg, d) :: later, hSettle, ?_, by simpa using hGiven,
    fun hNot => List.forall_mem_cons.2 ⟨hHead, hApart hNot⟩⟩
  rw [hPlaces]
  exact .place hPlain hWord hReads

/-- **What is read from some point of a level on is accepted there.** -/
theorem reads_of_foldlM {words : List Word} (hOrder : l.IsOrderly s) (hTrailing : s.trailing = false)
    (hAwaits : s.awaits = false) (hRead : words.foldlM (l.readWord · ·) s = .ok t)
    (hEnd : t.settle = .ok u) : l.AcceptsBehind s (l.pieces words) u := by
  fun_induction l.pieces words generalizing s with
  | case1 =>
      cases hRead
      obtain ⟨g, rfl, -⟩ := Progress.settle_eq_ok_iff.1 hEnd
      rw [hTrailing] at hEnd
      exact ⟨g, [], hEnd, .nothing _, by simp, by simp⟩
  | case2 rest =>
      rw [List.foldlM_cons, readWord_separator hTrailing] at hRead
      obtain ⟨given, filled, hSettle, hFills, hGiven, hLast⟩ :=
        fills_of_foldlM (s := { s with trailing := true }) rfl hAwaits hRead hEnd
      have hBefore := Progress.settle_trailing_iff.1 hSettle
      rw [hTrailing] at hBefore
      refine ⟨given, filled, hBefore, .separator hFills, hGiven, fun hNot => ?_⟩
      rw [hLast] at hNot
      cases hNot
  | case3 word hOther hOpens =>
      rw [List.foldlM_cons] at hRead
      obtain ⟨v, hFirst, hRest⟩ := bind_eq_ok_iff.1 hRead
      cases hRest
      obtain ⟨long, o, given, -, -, -, -, rfl⟩ :=
        (step_of_readWord hSound hTrailing hFirst).of_opens hSound hOther hOpens
      cases (settle_spec hEnd).2.2
  | case4 word hOther hOpens value others ih =>
      rw [List.foldlM_cons] at hRead
      obtain ⟨v, hFirst, hRead⟩ := bind_eq_ok_iff.1 hRead
      have hStep := step_of_readWord hSound hTrailing hFirst
      have hNext := hOrder.step hSound hStep
      obtain ⟨long, o, given, rfl, hLong, hTakes, hSettle, rfl⟩ := hStep.of_opens hSound hOther hOpens
      rw [List.foldlM_cons] at hRead
      obtain ⟨w, hSecond, hRest⟩ := bind_eq_ok_iff.1 hRead
      have hStep := step_of_readWord hSound rfl hSecond
      obtain ⟨hPlain, rfl⟩ := value_of_step hSound (List.mem_of_find?_eq_some hLong) hOrder.places
        hStep hRest hEnd
      have hLater := ih (hNext.step hSound hStep) rfl rfl hRest
      -- The value can be read, because it settles.
      obtain ⟨g, hSettled⟩ := hLater.settles
      obtain ⟨-, d, hWord, hSame⟩ := Progress.settle_single_iff.1 hSettled
      cases hSame
      exact hLater.option hSettle hSettled (.apart ⟨o, hLong, rfl, hTakes⟩ hWord hPlain)
        (by simpa using hOther)
  | case5 word rest hOther hOpens ih =>
      rw [List.foldlM_cons] at hRead
      obtain ⟨v, hFirst, hRest⟩ := bind_eq_ok_iff.1 hRead
      have hStep := step_of_readWord hSound hTrailing hFirst
      have hNext := hOrder.step hSound hStep
      have hHead : [word].head? ≠ some separator := by simpa using hOther
      cases hStep with
      | separator => exact absurd rfl hOther
      | option hSettle hSpells _ => exact (ih hNext rfl rfl hRest).option hSettle rfl hSpells hHead
      | opens hSettle hLong hTakes =>
          rw [opens_switchWord hSound.names hLong] at hOpens
          exact absurd hTakes hOpens
      | value _ hValue =>
          rw [hAwaits] at hValue
          cases hValue
      | place hPlain _ hPlace =>
          obtain ⟨hLater, hSame⟩ := awaits_of_readPlace hPlace
          exact (ih hNext (hSame.trans hTrailing) hLater hRest).place hTrailing hAwaits hPlain hPlace hHead

/-! ## What is accepted is read -/

omit hSound in
/-- Places that can be filled behind what was given: each has an argument of its own, which is that of no
option, and the argument of one that takes a single word was not given. -/
structure Fillable (l : Level) (places : List PositionalSpec) (given : Given) : Prop where
  apart : (places.map (·.arg)).Nodup
  options : ∀ p ∈ places, ∀ o ∈ l.options, o.arg ≠ p.arg
  free : ∀ p ∈ places, p.many = true ∨ given.has p.arg = false

theorem IsSound.fillable : l.Fillable l.positionals [] :=
  ⟨hSound.apart, hSound.places, fun _ _ => .inr rfl⟩

omit hSound in
/-- Options fill no places. -/
theorem Fillable.option {places : List PositionalSpec} {given entries : Given} {o : OptionSpec}
    (h : l.Fillable places given) (hOption : o ∈ l.options) (hArgs : ∀ e ∈ entries, e.1 = o.arg) :
    l.Fillable places (given ++ entries) := by
  refine ⟨h.apart, h.options, fun p hp => (h.free p hp).imp_right fun hNone => ?_⟩
  rw [Given.has_append, hNone, Bool.false_or, Given.has_eq_false_iff]
  intro hMem
  obtain ⟨e, he, hArg⟩ := List.mem_map.1 hMem
  exact h.options p hp o hOption ((hArgs e he).symm.trans hArg)

omit hSound in
/-- A word fills one place. -/
theorem Fillable.place {p : PositionalSpec} {rest : List PositionalSpec} {given : Given}
    (h : l.Fillable (p :: rest) given) (d : Datum) :
    l.Fillable (p.behind rest) (given ++ [(p.arg, d)]) := by
  have hSubset := p.behind_subset rest
  obtain ⟨hFirst, hOthers⟩ := List.nodup_cons.1 h.apart
  refine ⟨?_, fun q hq => h.options q (hSubset hq), fun q hq => ?_⟩
  · unfold PositionalSpec.behind
    split
    · exact h.apart
    · exact hOthers
  · refine or_iff_not_imp_left.2 fun hSingle => ?_
    rw [Given.has_append, (h.free q (hSubset hq)).resolve_left hSingle, Bool.false_or,
      Given.has_eq_false_iff]
    intro hMem
    have hArg : q.arg = p.arg := by simpa using hMem
    -- A place with the argument of the first one is the first one, which is gone unless it takes more.
    unfold PositionalSpec.behind at hq
    split at hq
    · rename_i hMany
      rcases List.mem_cons.1 hq with rfl | hLater
      · exact hSingle hMany
      · exact hFirst (List.mem_map.2 ⟨q, hLater, hArg⟩)
    · exact hFirst (List.mem_map.2 ⟨q, hq, hArg⟩)

omit hSound in
/-- **Words that fill the places are read behind the separator.** -/
theorem foldlM_of_fills {places : List PositionalSpec} {words : List Word} {given filled : Given}
    (h : Fills places words filled) (hFill : l.Fillable places given)
    (hSettle : s.settle = .ok ⟨given, none, places, true⟩) :
    ∃ t left, words.foldlM (l.readWord · ·) s = .ok t ∧
      t.settle = .ok ⟨given ++ filled, none, left, true⟩ := by
  induction words generalizing places given filled s with
  | nil =>
      rw [h.eq_nil, List.append_nil]
      exact ⟨s, places, rfl, hSettle⟩
  | cons word words ih =>
      obtain ⟨-, hTrailing, -⟩ := settle_spec hSettle
      cases places with
      | nil => cases h
      | cons p rest =>
          obtain ⟨d, later, hRead, hLater, rfl⟩ := fills_cons_iff.1 h
          obtain ⟨v, hFirst, hNext⟩ :=
            readPlace_of_settle hSettle hRead (hFill.free p (.head _)) (l := l)
          obtain ⟨t, left, hRest, hEnd⟩ := ih hLater (hFill.place d) hNext
          rw [List.append_assoc] at hEnd
          refine ⟨t, left, ?_, hEnd⟩
          rw [List.foldlM_cons, readWord_trailing l hTrailing, hFirst]
          exact hRest

/-- **What is accepted at some point of a level is read from there on.** -/
theorem foldlM_of_reads {places : List PositionalSpec} {ps : List (List Word)} {given later : Given}
    (h : l.Reads places ps later) (hFill : l.Fillable places given)
    (hSettle : s.settle = .ok ⟨given, none, places, false⟩) (hOnce : l.Once (given ++ later)) :
    ∃ t left trailing, ps.flatten.foldlM (l.readWord · ·) s = .ok t ∧
      t.settle = .ok ⟨given ++ later, none, left, trailing⟩ := by
  induction h generalizing given s with
  | nothing places =>
      rw [List.append_nil]
      exact ⟨s, places, false, rfl, hSettle⟩
  | option hSpells _ ih =>
      rw [← List.append_assoc] at hOnce
      obtain ⟨o, hOption, -, -, -, hArgs⟩ := hSpells.argOf?_eq hSound
      obtain ⟨v, hFirst, hNext, -⟩ :=
        foldlM_of_spells hSound.names hSound.hyphen hSpells hSettle hOnce.append_left
      obtain ⟨t, left, trailing, hRest, hEnd⟩ := ih (hFill.option hOption hArgs) hNext hOnce
      rw [List.append_assoc] at hEnd
      refine ⟨t, left, trailing, ?_, hEnd⟩
      rw [List.flatten_cons, List.foldlM_append, hFirst]
      exact hRest
  | @place p rest word d pieces later hPlain hRead _ ih =>
      obtain ⟨-, hTrailing, hAwaits⟩ := settle_spec hSettle
      obtain ⟨v, hFirst, hNext⟩ :=
        readPlace_of_settle hSettle hRead (hFill.free p (.head _)) (l := l)
      rw [List.append_cons] at hOnce
      obtain ⟨t, left, trailing, hRest, hEnd⟩ := ih (hFill.place d) hNext hOnce
      rw [List.append_assoc] at hEnd
      refine ⟨t, left, trailing, ?_, hEnd⟩
      rw [List.flatten_cons, List.singleton_append, List.foldlM_cons, readWord_plain hPlain hTrailing,
        hAwaits, if_neg Bool.false_ne_true, hFirst]
      exact hRest
  | @separator places words later hFills =>
      obtain ⟨rfl, hTrailing, -⟩ := settle_spec hSettle
      have hNext : Progress.settle { s with trailing := true } = .ok ⟨given, none, s.places, true⟩ :=
        Progress.settle_trailing_iff.2 (by rw [hTrailing]; exact hSettle)
      obtain ⟨t, left, hRest, hEnd⟩ := foldlM_of_fills hFills hFill hNext (l := l)
      refine ⟨t, left, true, ?_, hEnd⟩
      rw [List.flatten_singleton, List.foldlM_cons, readWord_separator hTrailing]
      exact hRest

/-! ## Options that exclude each other -/

private theorem checkExclusive_clashes {g : Given} (h : g.Clashes) :
    ∃ o ∈ globalOptions, o.arg ∈ exclusive ∧ l.checkExclusive g = .error (.conflict o.form) := by
  have hAll : exclusive.all g.has = true := by simpa [Given.Clashes] using h
  cases hFirst : g.find? (exclusive.contains ·.1) with
  | none =>
      obtain ⟨e, hMem, hArg⟩ := List.any_eq_true.1 (h .output (.head _))
      have hOther := List.find?_eq_none.1 hFirst e hMem
      rw [show e.1 = .output by simpa using hArg] at hOther
      exact absurd rfl hOther
  | some e =>
      have hExclusive : e.1 ∈ exclusive := by simpa using List.find?_some hFirst
      have hGlobal : ∃ o ∈ globalOptions, o.arg = e.1 := by
        have hTable : ∀ a ∈ exclusive, ∃ o ∈ globalOptions, o.arg = a := by decide
        exact hTable e.1 hExclusive
      obtain ⟨o, hShared, hArg⟩ := hGlobal
      have hOption : o ∈ l.options := List.mem_of_find?_eq_some (hSound.global o hShared).1
      cases hFound : l.options.find? (·.arg = e.1) with
      | none =>
          have hOther := List.find?_eq_none.1 hFound o hOption
          rw [hArg] at hOther
          exact absurd (decide_eq_true rfl) hOther
      | some q =>
          have hSame : q.arg = e.1 := by simpa using List.find?_some hFound
          refine ⟨q, hSound.shared q (List.mem_of_find?_eq_some hFound) ?_, hSame ▸ hExclusive, ?_⟩
          · rw [hSame, ← hArg]
            exact List.any_eq_true.2 ⟨o, hShared, decide_eq_true rfl⟩
          · rw [checkExclusive, if_pos hAll, hFirst, Option.bind_some, hFound]

/-- **Options that exclude each other are refused**, by the name of one of them, and nothing else is. -/
theorem checkExclusive_cases (g : Given) :
    ¬g.Clashes ∧ l.checkExclusive g = .ok () ∨
      g.Clashes ∧ ∃ o ∈ globalOptions, o.arg ∈ exclusive ∧
        l.checkExclusive g = .error (.conflict o.form) := by
  by_cases h : g.Clashes
  · exact .inr ⟨h, checkExclusive_clashes hSound h⟩
  · refine .inl ⟨h, if_neg fun hAll => h ?_⟩
    simpa [Given.Clashes] using hAll

/-! ## All words -/

/-- What is read behind the command word, before options that exclude each other are looked for. -/
theorem settle_iff_reads {words : List Word} {given : Given} :
    (∃ t u, words.foldlM (l.readWord · ·) l.start = .ok t ∧ t.settle = .ok u ∧ u.given = given) ↔
      l.Reads l.positionals (l.pieces words) given ∧ l.Once given := by
  have hStart : l.start.settle = .ok ⟨[], none, l.positionals, false⟩ := rfl
  constructor
  · rintro ⟨t, u, hRead, hEnd, rfl⟩
    have hOrder : l.IsOrderly l.start :=
      ⟨fun _ _ => Nat.zero_le 1, by simp [start], fun _ hPlace => hPlace⟩
    obtain ⟨g, later, hSettle, hReads, hGiven, -⟩ :=
      reads_of_foldlM hSound hOrder rfl rfl hRead hEnd
    rw [hStart] at hSettle
    cases hSettle
    rw [List.nil_append] at hGiven
    rw [hGiven]
    refine ⟨hReads, ?_⟩
    rw [← hGiven]
    exact ((hOrder.foldlM hSound hRead).settle hEnd).once
  · rintro ⟨hReads, hOnce⟩
    obtain ⟨t, left, trailing, hRead, hEnd⟩ :=
      foldlM_of_reads hSound hReads hSound.fillable hStart hOnce
    rw [flatten_pieces] at hRead
    exact ⟨t, _, hRead, hEnd, rfl⟩

/-- What is left to do when the words of a level have been read. -/
theorem readWords_of_reads {words : List Word} {given : Given} (env : Environment)
    (hReads : l.Reads l.positionals (l.pieces words) given) (hOnce : l.Once given) :
    l.readWords env words = (do
      faulty (env.check given)
      faulty (l.checkExclusive given)
      return given) := by
  obtain ⟨t, u, hRead, hEnd, rfl⟩ := (settle_iff_reads hSound).2 ⟨hReads, hOnce⟩
  rw [readWords, hRead]
  simp only [bind, Except.bind, finish_of_settle hEnd]
  cases faulty (env.check u.given) <;> rfl

/-- **A level accepts the words that its table allows**, if nothing is given twice, the address can be read
and no options are given that exclude each other. -/
theorem readWords_eq_ok_iff {env : Environment} {words : List Word} {given : Given} :
    l.readWords env words = .ok given ↔ l.Reads l.positionals (l.pieces words) given ∧ l.Once given ∧
      env.Serves given ∧ ¬given.Clashes := by
  constructor
  · intro h
    simp only [readWords, finish, bind_eq_ok_iff, faulty, mapError_eq_ok_iff] at h
    obtain ⟨t, hRead, given, ⟨u, hEnd, ⟨⟩, hServes, ⟨⟩⟩, ⟨⟩, hCheck, ⟨⟩⟩ := h
    obtain ⟨hReads, hOnce⟩ := (settle_iff_reads hSound).1 ⟨t, u, hRead, hEnd, rfl⟩
    refine ⟨hReads, hOnce, Environment.check_eq_ok_iff.1 hServes, ?_⟩
    obtain ⟨hApart, -⟩ | ⟨-, o, -, -, hRefused⟩ := checkExclusive_cases hSound u.given
    · exact hApart
    · rw [hCheck] at hRefused
      cases hRefused
  · rintro ⟨hReads, hOnce, hServes, hApart⟩
    rw [readWords_of_reads hSound env hReads hOnce, Environment.check_eq_ok_iff.2 hServes]
    obtain ⟨-, hCheck⟩ | ⟨hClashes, -⟩ := checkExclusive_cases hSound given
    · rw [hCheck]
      rfl
    · exact absurd hClashes hApart

/-- **Options that exclude each other in one level are refused**, if all else can be read. -/
theorem readWords_of_clashes {env : Environment} {words : List Word} {given : Given}
    (hReads : l.Reads l.positionals (l.pieces words) given) (hOnce : l.Once given)
    (hServes : env.Serves given) (h : given.Clashes) :
    ∃ o ∈ globalOptions, o.arg ∈ exclusive ∧
      l.readWords env words = .error (.argument (.conflict o.form)) := by
  obtain ⟨hApart, -⟩ | ⟨-, o, hShared, hExclusive, hRefused⟩ := checkExclusive_cases hSound given
  · exact absurd h hApart
  · refine ⟨o, hShared, hExclusive, ?_⟩
    rw [readWords_of_reads hSound env hReads hOnce, Environment.check_eq_ok_iff.2 hServes, hRefused]
    rfl

/-! ## Words that are written plainly -/

/-- Options that are given once each are given once, whatever fills the places. -/
theorem once_of_nodup {given filled : Given} (hOnce : (given.map (·.1)).Nodup)
    (hPlaces : ∀ e ∈ filled, e.1 ∈ l.positionals.map (·.arg)) : l.Once (given ++ filled) := by
  intro a hRepeats
  have hNone : filled.has a = false := by
    rw [Given.has_eq_false_iff]
    intro hMem
    obtain ⟨e, he, rfl⟩ := List.mem_map.1 hMem
    obtain ⟨p, hPlace, hArg⟩ := List.mem_map.1 (hPlaces e he)
    exact hRepeats (hArg ▸ hSound.repeats_place hPlace)
  have hValues : filled.values a = [] := by simpa [Given.has_eq_isEmpty] using hNone
  rw [Given.values_append, hValues, List.append_nil]
  exact Given.length_values_le hOnce a

/-- Words of options may stand in front of what is accepted. -/
theorem Reads.options_append {places : List PositionalSpec} {optionWords words : List Word}
    {given later : Given} (hSays : List.Forall₂ l.Says optionWords given) (h : l.Reads places (l.pieces words) later) :
    l.Reads places (l.pieces (optionWords ++ words)) (given ++ later) := by
  induction hSays with
  | nil => exact h
  | @cons word entry optionWords given hWord _ ih =>
      have hSpells : l.Spells [word] [entry] := .word hWord
      have hPieces := hSpells.pieces_append hSound (optionWords ++ words)
      rw [List.singleton_append] at hPieces
      rw [List.cons_append, List.cons_append, hPieces, ← List.singleton_append]
      exact .option hSpells ih

/-- **A level that is written plainly reads back**: options in one word each, and behind the separator
the words of the places. -/
theorem readWords_of_written {env : Environment} (hText : env.isText = true)
    {optionWords words : List Word} {given filled : Given}
    (hSays : List.Forall₂ l.Says optionWords given) (hOnce : (given.map (·.1)).Nodup)
    (hFills : Fills l.positionals words filled) (hTogether : ¬Given.Clashes (given ++ filled)) :
    l.readWords env (optionWords ++ if words.isEmpty then [] else CommandLine.separator :: words) =
      .ok (given ++ filled) := by
  have hPlaces : l.Reads l.positionals
      (l.pieces (if words.isEmpty then [] else CommandLine.separator :: words)) filled := by
    by_cases hNone : words = []
    · subst hNone
      rw [hFills.eq_nil]
      exact .nothing _
    · rw [if_neg (by simpa using hNone), pieces_separator]
      exact .separator hFills
  exact (readWords_eq_ok_iff hSound).2
    ⟨.options_append hSound hSays hPlaces, once_of_nodup hSound hOnce hFills.arg_mem, .inr hText,
      hTogether⟩

end Level

/-! ## The words in front of the command word -/

namespace Level

variable {l : Level} {s t u : Progress}

/-- Words that are read up to a command word are words in front of it. -/
private theorem foldlM_of_readToCommand {words rest : List Word} {c : CommandName}
    (h : l.readToCommand s words = .ok (t, some (c, rest))) :
    ∃ before, words = before ++ Text.Utf8.bytes c.name :: rest ∧
      before.foldlM (l.readWord · ·) s = .ok t ∧ t.trailing = false ∧ t.awaits = false := by
  induction words generalizing s with
  | nil => cases h
  | cons word words ih =>
      rw [readToCommand] at h
      split at h
      · rename_i c' hCommand
        cases h
        split at hCommand
        · cases hCommand
        · rename_i hFree
          obtain ⟨text, hText, hName⟩ := Option.bind_eq_some_iff.1 hCommand
          have hWord : word = Text.Utf8.bytes c.name := by
            rw [CommandName.name_of_ofName? hName, Text.Utf8.bytes_of_text? hText]
          have hBoth : t.trailing = false ∧ t.awaits = false := by simpa using hFree
          exact ⟨[], by rw [hWord]; rfl, rfl, hBoth.1, hBoth.2⟩
      · obtain ⟨v, hFirst, hRest⟩ := bind_eq_ok_iff.1 h
        obtain ⟨before, rfl, hRead, hEnd⟩ := ih hRest
        refine ⟨word :: before, rfl, ?_, hEnd⟩
        rw [List.foldlM_cons, hFirst]
        exact hRead

/-- Without places and separator all pieces are options. -/
private theorem Reads.exists_spells {ps : List (List Word)} {given : Given} (h : l.Reads [] ps given)
    (hNone : ∀ piece ∈ ps, piece.head? ≠ some CommandLine.separator) :
    ∃ gs, List.Forall₂ l.Spells ps gs ∧ given = gs.flatten := by
  generalize hPlaces : ([] : List PositionalSpec) = places at h
  induction h with
  | nothing => exact ⟨[], .nil, rfl⟩
  | option hSpells _ ih =>
      obtain ⟨gs, hAll, rfl⟩ := ih (List.forall_mem_cons.1 hNone).2 hPlaces
      exact ⟨_ :: gs, .cons hSpells hAll, rfl⟩
  | place => cases hPlaces
  | separator => exact absurd rfl (hNone _ (.head _))

/-- **In front of the command word stand options**, none of which is given twice. -/
theorem gives_of_readToCommand (hSound : l.IsSound) (hPlaces : l.positionals = []) {words rest : List Word}
    {c : CommandName} (h : l.readToCommand l.start words = .ok (t, some (c, rest)))
    (hEnd : t.settle = .ok u) :
    ∃ before, words = before ++ Text.Utf8.bytes c.name :: rest ∧ l.Gives before u.given ∧
      l.Once u.given := by
  obtain ⟨before, rfl, hRead, hTrailing, -⟩ := foldlM_of_readToCommand h
  have hOrder : l.IsOrderly l.start :=
    ⟨fun _ _ => Nat.zero_le 1, by simp [start], fun _ hPlace => hPlace⟩
  obtain ⟨g, later, hSettle, hReads, hGiven, hNone⟩ :=
    reads_of_foldlM hSound hOrder rfl rfl hRead hEnd
  cases hSettle
  rw [List.nil_append] at hGiven
  rw [show l.start.places = [] from hPlaces] at hReads
  obtain ⟨gs, hSpells, hFlat⟩ := hReads.exists_spells (hNone ((settle_spec hEnd).2.1 ▸ hTrailing))
  refine ⟨before, rfl, (gives_iff hSound).2 ⟨gs, hSpells, hGiven.trans hFlat⟩, ?_⟩
  exact ((hOrder.foldlM hSound hRead).settle hEnd).once

end Level

/-! ## Command lines -/

/-- **A command line that is read has a command word**, with options in front of it. -/
theorem exists_gives_of_read {env : Environment} {words : List Word} {i : Invocation}
    (h : read env words = .ok i) :
    ∃ before c after given, words = before ++ Text.Utf8.bytes (CommandName.name c) :: after ∧
      Level.top.Gives before given ∧ Level.top.Once given := by
  obtain ⟨⟨t, command?⟩, hTop, hRest⟩ := bind_eq_ok_iff.1 h
  cases command? with
  | none =>
      obtain ⟨u, hEnd, hRest⟩ := bind_eq_ok_iff.1 hRest
      cases hRest
  | some found =>
      obtain ⟨c, rest⟩ := found
      simp only [bind_eq_ok_iff, Level.finish, Level.faulty, mapError_eq_ok_iff] at hRest
      obtain ⟨after, -, command, -, -, ⟨u, hEnd, -⟩, -⟩ := hRest
      obtain ⟨before, hWords, hGives, hOnce⟩ :=
        Level.gives_of_readToCommand (Level.isSound none) rfl hTop hEnd
      exact ⟨before, c, rest, u.given, hWords, hGives, hOnce⟩

section Line

variable {env : Environment} {before after : List Word} {c : CommandName} {given : Given}
variable (hGives : Level.top.Gives before given) (hOnce : Level.top.Once given)
include hGives hOnce

/-- Behind options and the command word what is left to do does not depend on how the options are
spelled. -/
theorem read_of_gives :
    read env (before ++ Text.Utf8.bytes c.name :: after) = (do
      let later ← (Level.ofCommand c).readWords env after
      let command ← Level.faulty (later.command c)
      Level.faulty (env.check given)
      Level.faulty (Level.top.checkExclusive given)
      return ⟨settingsOf env given later, command⟩) := by
  have hSound := Level.isSound none
  have hStart : Level.top.start.settle = .ok ⟨[], none, [], false⟩ := rfl
  obtain ⟨t, hSettle, hTop⟩ := Level.readToCommand_of_gives hSound.names hSound.hyphen hGives hStart
    hOnce (Text.Utf8.bytes c.name :: after)
  obtain ⟨-, hTrailing, hAwaits⟩ := Level.settle_spec hSettle
  rw [readToCommand_of_ofName? (CommandName.ofName?_name c) hTrailing hAwaits] at hTop
  rw [read_of_readToCommand env hTop]
  rw [List.nil_append] at hSettle
  rw [Level.finish_of_settle hSettle]
  congr
  funext later
  congr
  funext command
  cases Level.faulty (env.check given) <;> rfl

/-- **A command line is read** if the words behind its command word are accepted and make a command, the
address can be read at both levels, and no options exclude each other in one level. -/
theorem read_eq_ok_iff {i : Invocation} :
    read env (before ++ Text.Utf8.bytes c.name :: after) = .ok i ↔
      env.Serves given ∧ ¬given.Clashes ∧ ∃ later command,
        (Level.ofCommand c).readWords env after = .ok later ∧ later.command c = .ok command ∧
          i = ⟨settingsOf env given later, command⟩ := by
  rw [read_of_gives hGives hOnce]
  simp only [bind_eq_ok_iff, Level.faulty, mapError_eq_ok_iff]
  constructor
  · rintro ⟨later, hLater, command, hCommand, ⟨⟩, hServes, ⟨⟩, hCheck, hEnd⟩
    refine ⟨Environment.check_eq_ok_iff.1 hServes, ?_, later, command, hLater, hCommand,
      (Except.ok.inj hEnd).symm⟩
    obtain ⟨hApart, -⟩ | ⟨-, o, -, -, hRefused⟩ :=
      Level.checkExclusive_cases (Level.isSound none) given
    · exact hApart
    · rw [show Level.of none = Level.top from rfl, hCheck] at hRefused
      cases hRefused
  · rintro ⟨hServes, hApart, later, command, hLater, hCommand, rfl⟩
    obtain ⟨-, hCheck⟩ | ⟨hClashes, -⟩ := Level.checkExclusive_cases (Level.isSound none) given
    · exact ⟨later, hLater, command, hCommand, (), Environment.check_eq_ok_iff.2 hServes, (), hCheck, rfl⟩
    · exact absurd hClashes hApart

end Line

end ControlClient.CommandLine
