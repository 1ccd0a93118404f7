import ControlClient.Proofs.CommandLine.Pieces
import ControlClient.Proofs.Text.Shortest

/-!
# What a word does

A level is read word by word. Before the separator a word that is read does one of five things (`Step`):
it is the separator, it spells an option, it opens one whose value is the next word, it is that value, or
it is positional. What an argument gives is noted only when the next one starts; so it is said of each
word what it gives once it is settled. No word gives anything twice (`IsOrderly`).

## Main results

* `settle_of_readPlace`, `readPlace_of_settle`: a positional word fills the next place.
* `readShort_eq_ok`, `readLong_eq_ok`: what a word of options says if it is read.
* `step_of_readWord`: a word that is read does one of five things.
* `IsOrderly.foldlM`: nothing is given twice.
-/

namespace ControlClient.CommandLine

/-- The places that are left behind a word of the first one. -/
def PositionalSpec.behind (p : PositionalSpec) (rest : List PositionalSpec) : List PositionalSpec :=
  if p.many then p :: rest else rest

theorem PositionalSpec.behind_subset (p : PositionalSpec) (rest : List PositionalSpec) :
    p.behind rest ⊆ p :: rest := by
  unfold behind
  split
  · exact List.Subset.refl _
  · exact List.subset_cons_self _ _

/-! ## Settling -/

/-- What is pending is settled if it has words that can be read and may be given. -/
theorem Pending.settle_eq_ok_iff {p : Pending} {g h : Given} :
    p.settle g = .ok h ↔ p.words ≠ [] ∧ (p.many = true ∨ g.has p.arg = false) ∧
      ∃ values, p.words.mapM p.arg.read = .ok values ∧ h = g ++ values.map (p.arg, ·) := by
  have hData : ∀ data, p.data = .ok data ↔ p.words.mapM p.arg.read = .ok data := by
    intro data
    unfold Pending.data
    split <;> simp_all
  have hTwice : ¬(!p.many && g.has p.arg) = true ↔ p.many = true ∨ g.has p.arg = false := by
    cases p.many <;> simp
  have hEmpty : ¬p.words.isEmpty = true ↔ p.words ≠ [] := by simp
  simp only [Pending.settle, guard_eq_ok_iff, bind_eq_ok_iff, hData, hTwice, hEmpty, pure, Except.pure,
    Except.ok.injEq, eq_comm (b := h)]

/-- A further word of what is pending gives one value more. -/
theorem Pending.settle_concat_iff {arg : Arg} {form : String} {many : Bool} {words : List Word}
    {word : Word} {g h : Given} :
    Pending.settle ⟨arg, form, many, words ++ [word]⟩ g = .ok h ↔
      (many = true ∨ g.has arg = false) ∧ ∃ values d, words.mapM arg.read = .ok values ∧
        arg.read word = .ok d ∧ h = (g ++ values.map (arg, ·)) ++ [(arg, d)] := by
  rw [settle_eq_ok_iff]
  simp only [List.mapM_append, List.mapM_cons, List.mapM_nil, bind_eq_ok_iff, pure, Except.pure,
    Except.ok.injEq]
  constructor
  · rintro ⟨-, hOnce, values, ⟨before, hBefore, last, ⟨d, hRead, none, rfl, rfl⟩, rfl⟩, rfl⟩
    exact ⟨hOnce, before, d, hBefore, hRead, by simp⟩
  · rintro ⟨hOnce, before, d, hBefore, hRead, rfl⟩
    exact ⟨by simp, hOnce, _, ⟨before, hBefore, _, ⟨d, hRead, [], rfl, rfl⟩, rfl⟩, by simp⟩

/-- One word gives one value. -/
theorem Pending.settle_single_iff {arg : Arg} {form : String} {many : Bool} {word : Word} {g h : Given} :
    Pending.settle ⟨arg, form, many, [word]⟩ g = .ok h ↔
      (many = true ∨ g.has arg = false) ∧ ∃ d, arg.read word = .ok d ∧ h = g ++ [(arg, d)] := by
  have hConcat := @settle_concat_iff arg form many [] word g h
  simpa [pure, Except.pure] using hConcat

namespace Progress

variable {s t : Progress}

/-- What settles is settled, or has something pending that settles. -/
theorem settle_eq_ok_iff : s.settle = .ok t ↔
    ∃ g, t = ⟨g, none, s.places, s.trailing⟩ ∧
      (s.pending? = none ∧ g = s.given ∨ ∃ p, s.pending? = some p ∧ p.settle s.given = .ok g) := by
  obtain ⟨given, pending?, places, trailing⟩ := s
  cases pending? with
  | none => simp [settle, eq_comm]
  | some p =>
      simp only [settle, map_eq_ok_iff]
      constructor
      · rintro ⟨g, hSettle, rfl⟩
        exact ⟨g, rfl, .inr ⟨p, rfl, hSettle⟩⟩
      · rintro ⟨g, rfl, ⟨hNone, -⟩ | ⟨q, hPending, hSettle⟩⟩
        · cases hNone
        · cases hPending
          exact ⟨g, hSettle, rfl⟩

/-- An argument begins behind what was pending, which settles. -/
theorem begin_eq_ok {arg : Arg} {form : String} {many : Bool} {words : List Word}
    (h : s.begin arg form many words = .ok t) :
    ∃ given, s.settle = .ok ⟨given, none, s.places, s.trailing⟩ ∧
      t = ⟨given, some ⟨arg, form, many, words⟩, s.places, s.trailing⟩ := by
  obtain ⟨v, hSettle, rfl⟩ := map_eq_ok_iff.1 h
  obtain ⟨given, rfl, -⟩ := settle_eq_ok_iff.1 hSettle
  exact ⟨given, hSettle, rfl⟩

/-- An argument with one word settles as the value of the word. -/
theorem settle_single_iff {arg : Arg} {form : String} {many : Bool} {word : Word} {given : Given}
    {places : List PositionalSpec} {trailing : Bool} :
    Progress.settle ⟨given, some ⟨arg, form, many, [word]⟩, places, trailing⟩ = .ok t ↔
      (many = true ∨ given.has arg = false) ∧ ∃ d, arg.read word = .ok d ∧
        t = ⟨given ++ [(arg, d)], none, places, trailing⟩ := by
  constructor
  · intro h
    obtain ⟨g, rfl, ⟨hNone, -⟩ | ⟨p, hPending, hValue⟩⟩ := settle_eq_ok_iff.1 h
    · cases hNone
    · cases hPending
      obtain ⟨hFree, d, hRead, rfl⟩ := Pending.settle_single_iff.1 hValue
      exact ⟨hFree, d, hRead, rfl⟩
  · rintro ⟨hFree, d, hRead, rfl⟩
    exact settle_eq_ok_iff.2 ⟨_, rfl, .inr ⟨_, rfl, Pending.settle_single_iff.2 ⟨hFree, d, hRead, rfl⟩⟩⟩

/-- Settling does not look at what is positional. -/
theorem settle_trailing_iff {given : Given} :
    Progress.settle { s with trailing := true } = .ok ⟨given, none, s.places, true⟩ ↔
      s.settle = .ok ⟨given, none, s.places, s.trailing⟩ := by
  simp [settle_eq_ok_iff]

end Progress

namespace Level

variable {l : Level} {s t u : Progress} {word : Word}

/-- The separator makes all that follows positional. -/
theorem readWord_separator (hTrailing : s.trailing = false) :
    l.readWord s separator = .ok { s with trailing := true } := by
  unfold readWord
  rw [hTrailing]
  rfl

/-! ## Positional words -/

/-- A positional word adds to what is pending, or starts a place of its own. -/
theorem readPlace_eq_ok (h : l.readPlace s word = .ok t) :
    ∃ p rest, s.places = p :: rest ∧
      (s.collects p = true ∧ t = s.push word ∨
        ∃ given, s.settle = .ok ⟨given, none, s.places, s.trailing⟩ ∧
          t = ⟨given, some ⟨p.arg, p.form, p.many, [word]⟩, p.behind rest, s.trailing⟩) := by
  unfold readPlace at h
  split at h
  · cases h
  · rename_i p rest hPlaces
    refine ⟨p, rest, hPlaces, ?_⟩
    split at h
    · rename_i hCollects
      exact .inl ⟨hCollects, (Except.ok.inj h).symm⟩
    · obtain ⟨v, hBegins, rfl⟩ := map_eq_ok_iff.1 (mapError_eq_ok_iff.1 h)
      obtain ⟨g, hSettle, rfl⟩ := Progress.begin_eq_ok hBegins
      exact .inr ⟨g, hSettle, rfl⟩

/-- What a place collects belongs to what is pending. -/
theorem pending_of_collects (word : Word) {p : PositionalSpec} (h : s.collects p = true) :
    p.many = true ∧ ∃ q, s.pending? = some q ∧ q.arg = p.arg ∧
      s.push word =
        ⟨s.given, some ⟨p.arg, q.form, q.many, q.words ++ [word]⟩, s.places, s.trailing⟩ := by
  obtain ⟨given, pending?, places, trailing⟩ := s
  cases pending? with
  | none => simp [Progress.collects] at h
  | some q =>
      simp only [Progress.collects, Option.any_some, Bool.and_eq_true, decide_eq_true_eq] at h
      exact ⟨h.1, q, rfl, h.2, by rw [← h.2]; rfl⟩

theorem awaits_of_readPlace (h : l.readPlace s word = .ok t) :
    t.awaits = false ∧ t.trailing = s.trailing := by
  obtain ⟨p, rest, hPlaces, ⟨hCollects, rfl⟩ | ⟨given, hSettle, rfl⟩⟩ := readPlace_eq_ok h
  · obtain ⟨-, q, -, -, hPush⟩ := pending_of_collects word hCollects
    rw [hPush]
    exact ⟨by simp [Progress.awaits], rfl⟩
  · exact ⟨rfl, rfl⟩

/-- **A positional word that settles gives the argument of its place**, behind what was pending. -/
theorem settle_of_readPlace (h : l.readPlace s word = .ok t) (hAwaits : s.awaits = false)
    (hEnd : t.settle = .ok u) :
    ∃ p rest given d, s.places = p :: rest ∧ t.places = p.behind rest ∧
      s.settle = .ok ⟨given, none, s.places, s.trailing⟩ ∧ p.arg.read word = .ok d ∧
      u.given = given ++ [(p.arg, d)] := by
  obtain ⟨p, rest, hPlaces, ⟨hCollects, rfl⟩ | ⟨given, hSettle, rfl⟩⟩ := readPlace_eq_ok h
  · obtain ⟨hMany, q, hPending, hArg, hPush⟩ := pending_of_collects word hCollects
    have hWords : q.words ≠ [] := by
      rintro hNone
      simp [Progress.awaits, hPending, hNone] at hAwaits
    rw [hPush] at hEnd ⊢
    obtain ⟨g, rfl, ⟨hNone, -⟩ | ⟨q', hNext, hValues⟩⟩ := Progress.settle_eq_ok_iff.1 hEnd
    · cases hNone
    · cases hNext
      obtain ⟨hOnce, values, d, hRead, hWord, rfl⟩ := Pending.settle_concat_iff.1 hValues
      rw [← hArg] at hOnce hRead
      refine ⟨p, rest, _, d, hPlaces, ?_, ?_, hWord, rfl⟩
      · rw [PositionalSpec.behind, if_pos hMany, ← hPlaces]
      · exact Progress.settle_eq_ok_iff.2 ⟨_, rfl, .inr ⟨q, hPending,
          Pending.settle_eq_ok_iff.2 ⟨hWords, hOnce, values, hRead, by rw [hArg]⟩⟩⟩
  · obtain ⟨-, d, hWord, rfl⟩ := Progress.settle_single_iff.1 hEnd
    exact ⟨p, rest, given, d, hPlaces, rfl, hSettle, hWord, rfl⟩

/-- **A positional word fills a place that is free**, behind what was pending. -/
theorem readPlace_of_settle {p : PositionalSpec} {rest : List PositionalSpec} {given : Given} {d : Datum}
    {trailing : Bool} (hSettle : s.settle = .ok ⟨given, none, p :: rest, trailing⟩)
    (hRead : p.arg.read word = .ok d) (hFree : p.many = true ∨ given.has p.arg = false) :
    ∃ t, l.readPlace s word = .ok t ∧
      t.settle = .ok ⟨given ++ [(p.arg, d)], none, p.behind rest, trailing⟩ := by
  obtain ⟨hPlaces, hTrailing, -⟩ := settle_spec hSettle
  dsimp only at hPlaces hTrailing
  by_cases hCollects : s.collects p = true
  · obtain ⟨hMany, q, hPending, hArg, hPush⟩ := pending_of_collects word hCollects
    refine ⟨_, by rw [readPlace, hPlaces]; exact if_pos hCollects, ?_⟩
    obtain ⟨g, hSame, ⟨hNone, -⟩ | ⟨q', hNext, hValues⟩⟩ := Progress.settle_eq_ok_iff.1 hSettle
    · rw [hPending] at hNone
      cases hNone
    · obtain rfl : given = g := congrArg Progress.given hSame
      obtain rfl : q = q' := Option.some.inj (hPending.symm.trans hNext)
      obtain ⟨-, hOnce, values, hAll, rfl⟩ := Pending.settle_eq_ok_iff.1 hValues
      rw [hArg] at hOnce hAll ⊢
      refine Progress.settle_eq_ok_iff.2 ⟨_, ?_, .inr ⟨_, by rw [hPush], by
        rw [hPush]
        exact Pending.settle_concat_iff.2 ⟨hOnce, values, d, hAll, hRead, rfl⟩⟩⟩
      rw [hPush, PositionalSpec.behind, if_pos hMany, hPlaces, hTrailing]
  · refine ⟨⟨given, some ⟨p.arg, p.form, p.many, [word]⟩, p.behind rest, trailing⟩, ?_, ?_⟩
    · have hOther : s.collects p = false := Bool.eq_false_iff.2 hCollects
      simp only [readPlace, hPlaces, hOther, Progress.begin, hSettle, Except.map, faulty,
        Except.mapError, Bool.false_eq_true, if_false, PositionalSpec.behind]
    · exact Progress.settle_single_iff.2 ⟨hFree, d, hRead, rfl⟩

/-! ## Words of options -/

/-- An argument that was not given before, or may be given again, is given once. -/
theorem Once.concat {given : Given} (h : l.Once given) {entry : Arg × Datum}
    (hFresh : l.Repeats entry.1 ∨ given.has entry.1 = false) : l.Once (given ++ [entry]) := by
  intro a hRepeats
  obtain ⟨b, d⟩ := entry
  have hBefore := h a hRepeats
  rw [Given.values_append, Given.values_singleton]
  by_cases hSame : b = a
  · subst hSame
    have hNone : given.values b = [] := by
      simpa [Given.has_eq_isEmpty] using hFresh.resolve_left hRepeats
    rw [hNone, if_pos rfl, List.nil_append]
    exact Nat.le_refl 1
  · rwa [if_neg hSame, List.append_nil]

variable (hSound : l.IsSound)
include hSound

/-- A switch that is read gives its argument, behind what was pending. -/
theorem readSwitch_eq_ok {o : OptionSpec} (hOption : o ∈ l.options) {detail : Detail}
    (h : l.readSwitch s o detail = .ok t) :
    ∃ given, s.settle = .ok ⟨given, none, s.places, s.trailing⟩ ∧ o.arg ≠ .help ∧
      (l.Once given → l.Once (given ++ [(o.arg, .on)])) ∧
      t = ⟨given ++ [(o.arg, .on)], none, s.places, s.trailing⟩ := by
  obtain ⟨v, hSettle, hRest⟩ := bind_eq_ok_iff.1 h
  have hSettle := mapError_eq_ok_iff.1 hSettle
  obtain ⟨g, rfl, -⟩ := Progress.settle_eq_ok_iff.1 hSettle
  obtain ⟨hHelp, hRest⟩ := guard_eq_ok_iff.1 hRest
  obtain ⟨hOnce, hRest⟩ := guard_eq_ok_iff.1 hRest
  refine ⟨g, hSettle, hHelp, fun hBefore => hBefore.concat ?_, (Except.ok.inj hRest).symm⟩
  cases hCounts : o.counts with
  | true =>
      rw [hSound.letters o hOption hHelp (.inr hCounts)]
      exact .inl hSound.counted
  | false =>
      rw [hCounts] at hOnce
      exact .inr (by simpa using hOnce)

/-- Letters that are read give their arguments, behind what was pending. -/
theorem letters_of_foldlM {cs : List Char} (hSome : cs ≠ [])
    (h : cs.foldlM (m := Except Rejection) (fun s c =>
      match l.short? c with
      | some o => l.readSwitch s o .summary
      | none => throw (.argument (.unknown ("-" ++ c.toString)))) s = .ok t) :
    ∃ given entries, s.settle = .ok ⟨given, none, s.places, s.trailing⟩ ∧
      List.Forall₂ l.Letter cs entries ∧ (l.Once given → l.Once (given ++ entries)) ∧
      t = ⟨given ++ entries, none, s.places, s.trailing⟩ := by
  induction cs generalizing s with
  | nil => exact absurd rfl hSome
  | cons c cs ih =>
      rw [List.foldlM_cons] at h
      obtain ⟨v, hFirst, hRest⟩ := bind_eq_ok_iff.1 h
      split at hFirst
      · rename_i o hShort
        obtain ⟨given, hSettle, hHelp, hFresh, rfl⟩ :=
          readSwitch_eq_ok hSound (List.mem_of_find?_eq_some hShort) hFirst
        have hLetter : l.Letter c (o.arg, .on) := ⟨o, hShort, hHelp, rfl⟩
        by_cases hNone : cs = []
        · subst hNone
          cases hRest
          exact ⟨given, [(o.arg, .on)], hSettle, .cons hLetter .nil, hFresh, rfl⟩
        · obtain ⟨g, entries, hNext, hLetters, hLater, rfl⟩ := ih hNone hRest
          cases hNext
          refine ⟨given, (o.arg, .on) :: entries, hSettle, .cons hLetter hLetters, ?_, by simp⟩
          intro hOnce
          simpa using hLater (hFresh hOnce)
      · cases hFirst

/-- **A word of letters that is read is a piece of options.** -/
theorem readShort_eq_ok {body : Word} (hBody : body ≠ []) (h : l.readShort s body = .ok t) :
    ∃ given cs entries, s.settle = .ok ⟨given, none, s.places, s.trailing⟩ ∧ cs ≠ [] ∧
      body = Text.Utf8.encode cs ∧ List.Forall₂ l.Letter cs entries ∧
      (l.Once given → l.Once (given ++ entries)) ∧
      t = ⟨given ++ entries, none, s.places, s.trailing⟩ := by
  unfold readShort at h
  cases hLeading : Text.Utf8.leading body with
  | mk cs others =>
      rw [hLeading] at h
      obtain ⟨v, hLetters, hRest⟩ := bind_eq_ok_iff.1 h
      split at hRest
      · rename_i hNone
        cases hRest
        rw [List.isEmpty_iff] at hNone
        subst hNone
        have hBytes := Text.Utf8.encode_of_leading hLeading
        have hSome : cs ≠ [] := by
          rintro rfl
          exact hBody hBytes.symm
        obtain ⟨given, entries, hSettle, hAll, hOnce, rfl⟩ :=
          letters_of_foldlM hSound hSome hLetters
        exact ⟨given, cs, entries, hSettle, hSome, hBytes.symm, hAll, hOnce, rfl⟩
      · cases hRest

omit hSound in
/-- A name and a value stand on either side of the first equals sign. -/
private theorem eq_of_nameAndValue {body name : Word} {value? : Option Word}
    (h : nameAndValue body = (name, value?)) :
    body = value?.elim name fun value => name ++ 61 :: value := by
  obtain ⟨rfl, rfl⟩ := Prod.mk.inj h
  have hBody := List.takeWhile_append_dropWhile (p := fun b : UInt8 => decide (b ≠ 61)) (l := body)
  cases hRest : body.dropWhile (· ≠ 61) with
  | nil =>
      rw [hRest, List.append_nil] at hBody
      exact hBody.symm
  | cons b value =>
      have hSign : b = 61 := by
        have hHead := List.head?_dropWhile_not (fun b : UInt8 => decide (b ≠ 61)) body
        rw [hRest] at hHead
        simpa using hHead
      rw [hRest, hSign] at hBody
      exact hBody.symm

/-- **A word behind two hyphens that is read says what an option gives**, or opens an option. -/
theorem readLong_eq_ok {body : Word} (h : l.readLong s body = .ok t) :
    ∃ given, s.settle = .ok ⟨given, none, s.places, s.trailing⟩ ∧
      ((∃ entry, l.Says (45 :: 45 :: body) entry ∧ (l.Once given → l.Once (given ++ [entry])) ∧
          t = ⟨given ++ [entry], none, s.places, s.trailing⟩) ∨
        ∃ long o, 45 :: 45 :: body = switchWord long ∧ l.long? long = some o ∧
          o.valueName?.isSome ∧ t = ⟨given, some ⟨o.arg, o.form, false, []⟩, s.places, s.trailing⟩) := by
  unfold readLong at h
  cases hBody : nameAndValue body with
  | mk name value? =>
      rw [hBody] at h
      dsimp only at h
      split at h
      · cases h
      · rename_i o hOption
        obtain ⟨long, hName, hLong⟩ := Option.bind_eq_some_iff.1 hOption
        have hBytes := Text.Utf8.bytes_of_text? hName
        have hWord := eq_of_nameAndValue hBody
        rw [← hBytes] at hWord
        cases hTakes : o.valueName? with
        | none =>
            cases value? with
            | none =>
                simp only [hTakes] at h
                obtain ⟨given, hSettle, hHelp, hOnce, rfl⟩ :=
                  readSwitch_eq_ok hSound (List.mem_of_find?_eq_some hLong) h
                refine ⟨given, hSettle, .inl ⟨(o.arg, .on), ?_, hOnce, rfl⟩⟩
                rw [hWord, Option.elim_none, ← switchWord_eq]
                exact .switch ⟨o, hLong, rfl, hTakes⟩ hHelp
            | some value =>
                simp only [hTakes] at h
                cases h
        | some v =>
            have hSome : o.valueName?.isSome := by rw [hTakes]; rfl
            cases value? with
            | none =>
                simp only [hTakes] at h
                obtain ⟨given, hSettle, rfl⟩ := Progress.begin_eq_ok (mapError_eq_ok_iff.1 h)
                refine ⟨given, hSettle, .inr ⟨long, o, ?_, hLong, hSome, rfl⟩⟩
                rw [hWord, Option.elim_none, ← switchWord_eq]
            | some value =>
                simp only [hTakes] at h
                obtain ⟨w, hBegins, hEnd⟩ := bind_eq_ok_iff.1 (mapError_eq_ok_iff.1 h)
                obtain ⟨given, hSettle, rfl⟩ := Progress.begin_eq_ok hBegins
                obtain ⟨hNew, d, hRead, rfl⟩ := Progress.settle_single_iff.1 hEnd
                have hFresh := hNew.resolve_left Bool.false_ne_true
                refine ⟨given, hSettle,
                  .inl ⟨(o.arg, d), ?_, fun hOnce => hOnce.concat (.inr hFresh), rfl⟩⟩
                rw [hWord, Option.elim_some, ← optionWord_eq]
                exact .value ⟨o, hLong, rfl, hSome⟩ hRead

/-! ## Any word -/

omit hSound in
/-- What a word does that is read before the separator. -/
inductive Step (l : Level) (s : Progress) : Word → Progress → Prop where
  | separator : Step l s separator { s with trailing := true }
  /-- It spells an option. -/
  | option {word : Word} {given entries : Given}
      (hSettle : s.settle = .ok ⟨given, none, s.places, false⟩) (hSpells : l.Spells [word] entries)
      (hOnce : l.Once given → l.Once (given ++ entries)) :
      Step l s word ⟨given ++ entries, none, s.places, false⟩
  /-- It opens an option. -/
  | opens {long : String} {o : OptionSpec} {given : Given}
      (hSettle : s.settle = .ok ⟨given, none, s.places, false⟩) (hLong : l.long? long = some o)
      (hTakes : o.valueName?.isSome) :
      Step l s (switchWord long) ⟨given, some ⟨o.arg, o.form, false, []⟩, s.places, false⟩
  /-- It is the value of an option. -/
  | value {word : Word} (hPlain : ∀ b body, word ≠ 45 :: b :: body) (hAwaits : s.awaits = true) :
      Step l s word (s.push word)
  /-- It is positional. -/
  | place {word : Word} {t : Progress} (hPlain : ∀ b body, word ≠ 45 :: b :: body)
      (hAwaits : s.awaits = false) (hPlace : l.readPlace s word = .ok t) : Step l s word t

/-- **A word that is read before the separator does one of five things.** -/
theorem step_of_readWord (hTrailing : s.trailing = false) (h : l.readWord s word = .ok t) :
    l.Step s word t := by
  by_cases hPlain : ∀ b body, word ≠ 45 :: b :: body
  · rw [readWord_plain hPlain hTrailing] at h
    cases hAwaits : s.awaits with
    | true =>
        rw [hAwaits, if_pos rfl] at h
        cases h
        exact .value hPlain hAwaits
    | false =>
        rw [hAwaits, if_neg Bool.false_ne_true] at h
        exact .place hPlain hAwaits h
  · unfold readWord at h
    rw [hTrailing, if_neg Bool.false_ne_true] at h
    split at h
    · cases h
      exact .separator
    · rename_i body hOther
      obtain ⟨given, hSettle, ⟨entry, hSays, hOnce, rfl⟩ | ⟨long, o, hWord, hLong, hTakes, rfl⟩⟩ :=
        readLong_eq_ok hSound h
      · rw [hTrailing] at hSettle ⊢
        exact .option hSettle (.word hSays) hOnce
      · rw [hTrailing] at hSettle ⊢
        rw [hWord]
        exact .opens hSettle hLong hTakes
    · rename_i b body hFirst hSecond
      obtain ⟨given, cs, entries, hSettle, hSome, hBytes, hLetters, hOnce, rfl⟩ :=
        readShort_eq_ok hSound (by simp) h
      rw [hTrailing] at hSettle ⊢
      rw [hBytes]
      exact .option hSettle (.letters hSome hLetters) hOnce
    · rename_i hFirst hSecond hThird
      exact absurd (fun b body hEq => hThird b body hEq) hPlain

/-! ## Once -/

omit hSound in
/-- Nothing was given twice so far: what is pending is one word, unless its argument may be given again,
and the places that are left are places of the level. -/
structure IsOrderly (l : Level) (s : Progress) : Prop where
  once : l.Once s.given
  pending : ∀ p ∈ s.pending?, l.Repeats p.arg ∨ p.many = false ∧ p.words.length ≤ 1
  places : ∀ p ∈ s.places, p ∈ l.positionals

/-- A place may be filled again as far as options are concerned. -/
theorem IsSound.repeats_place {p : PositionalSpec} (h : p ∈ l.positionals) : l.Repeats p.arg :=
  fun o hOption hArg => absurd hArg (hSound.places p h o hOption)

omit hSound in
theorem IsOrderly.settle (h : l.IsOrderly s) (hSettle : s.settle = .ok t) : l.IsOrderly t := by
  obtain ⟨g, rfl, ⟨-, rfl⟩ | ⟨p, hPending, hValues⟩⟩ := Progress.settle_eq_ok_iff.1 hSettle
  · exact ⟨h.once, by simp, h.places⟩
  refine ⟨?_, by simp, h.places⟩
  obtain ⟨arg, form, many, words⟩ := p
  rcases h.pending _ hPending with hRepeats | ⟨hSingle, hLength⟩
  · obtain ⟨-, -, values, -, rfl⟩ := Pending.settle_eq_ok_iff.1 hValues
    intro a hOther
    have hArg : arg ≠ a := by
      rintro rfl
      exact hOther hRepeats
    rw [Given.values_append, Given.values_map, if_neg hArg, List.append_nil]
    exact h.once a hOther
  · obtain ⟨hSome, -, -, -, -⟩ := Pending.settle_eq_ok_iff.1 hValues
    match words, hSome, hLength with
    | [word], _, _ =>
        obtain ⟨hNew, d, -, rfl⟩ := Pending.settle_single_iff.1 hValues
        have hMany : ¬many = true := by simpa using hSingle
        exact h.once.concat (.inr (hNew.resolve_left hMany))

theorem IsOrderly.readPlace (h : l.IsOrderly s) (hRead : l.readPlace s word = .ok t) :
    l.IsOrderly t := by
  obtain ⟨p, rest, hPlaces, ⟨hCollects, rfl⟩ | ⟨given, hSettle, rfl⟩⟩ := readPlace_eq_ok hRead
  · have hPlace := h.places p (by rw [hPlaces]; exact .head _)
    obtain ⟨-, q, -, -, hPush⟩ := pending_of_collects word hCollects
    rw [hPush]
    refine ⟨h.once, ?_, h.places⟩
    rintro _ ⟨⟩
    exact .inl (hSound.repeats_place hPlace)
  · have hPlace := h.places p (by rw [hPlaces]; exact .head _)
    refine ⟨(h.settle hSettle).once, ?_, fun q hq => h.places q ?_⟩
    · rintro _ ⟨⟩
      exact .inl (hSound.repeats_place hPlace)
    · rw [hPlaces]
      exact p.behind_subset rest hq

/-- **A word does not give anything twice.** -/
theorem IsOrderly.step (h : l.IsOrderly s) (hStep : l.Step s word t) : l.IsOrderly t := by
  cases hStep with
  | separator => exact ⟨h.once, h.pending, h.places⟩
  | option hSettle _ hOnce => exact ⟨hOnce (h.settle hSettle).once, by simp, h.places⟩
  | opens hSettle _ _ =>
      refine ⟨(h.settle hSettle).once, ?_, h.places⟩
      rintro _ ⟨⟩
      exact .inr ⟨rfl, Nat.zero_le _⟩
  | value _ hAwaits =>
      refine ⟨h.once, ?_, h.places⟩
      intro q hq
      obtain ⟨p, hPending, rfl⟩ := Option.map_eq_some_iff.1 hq
      have hNone : p.words = [] := by simpa [Progress.awaits, hPending] using hAwaits
      refine (h.pending p hPending).imp_right fun hSingle => ⟨hSingle.1, ?_⟩
      rw [hNone]
      exact Nat.le_refl 1
  | place _ _ hPlace => exact h.readPlace hSound hPlace

/-- **Nothing is given twice.** -/
theorem IsOrderly.foldlM (h : l.IsOrderly s) {words : List Word}
    (hRead : words.foldlM (l.readWord · ·) s = .ok t) : l.IsOrderly t := by
  induction words generalizing s with
  | nil =>
      cases hRead
      exact h
  | cons word words ih =>
      rw [List.foldlM_cons] at hRead
      obtain ⟨v, hFirst, hRest⟩ := bind_eq_ok_iff.1 hRead
      refine ih ?_ hRest
      cases hTrailing : s.trailing with
      | true => exact h.readPlace hSound (by rwa [readWord_trailing l hTrailing] at hFirst)
      | false => exact h.step hSound (step_of_readWord hSound hTrailing hFirst)

end Level

end ControlClient.CommandLine
