import ControlClient.Proofs.CommandLine.Reading

/-!
# Some options apart from the others

The pieces of some options can be taken out of the words of a level without a change in how the others
are read, and they can be put back between any other pieces, but not behind the separator. What a level
gives falls apart in the same way. The options of all levels are the case that matters: a piece of them is
a piece in every level, and in front of the command word there are no others.

## Main results

* `Spells.split`, `Reads.split`: the pieces of some options, and all others.
* `Reads.weave`: both together again.
* `Reads.has_iff`: what is given of the options of all levels is what the pieces name.
-/

namespace ControlClient.CommandLine

namespace Level

variable {l : Level}

/-- Whether a piece gives by name one of some arguments. -/
def names (l : Level) (P : Arg → Bool) (piece : List Word) : Bool := (l.argOf? piece).any P

/-- A piece that starts with a positional word or the separator names nothing. -/
theorem names_eq_false {word : Word} (h : l.optionOf? word = none) (P : Arg → Bool) (rest : List Word) :
    l.names P (word :: rest) = false := by
  simp [names, argOf?, h]

/-- The separator is the start of the last piece. -/
theorem pieces_pairwise (l : Level) (words : List Word) :
    (l.pieces words).Pairwise fun piece _ => piece.head? ≠ some separator := by
  fun_induction l.pieces words with
  | case1 => exact .nil
  | case2 => exact List.pairwise_singleton _ _
  | case3 => exact List.pairwise_singleton _ _
  | case4 word hOther _ value others ih => exact .cons (fun _ _ => by simpa using hOther) ih
  | case5 word rest hOther _ ih => exact .cons (fun _ _ => by simpa using hOther) ih

section Apart

variable (hSound : l.IsSound) (P : Arg → Bool)
include hSound

/-! ## Some options apart -/

/-- What a piece of options gives is all of the arguments in question, or none of it is. -/
theorem Spells.filter_cases {piece : List Word} {entries : Given} (h : l.Spells piece entries) :
    l.names P piece = true ∧ entries.filter (P ·.1) = entries ∧ entries.filter (!P ·.1) = [] ∨
      l.names P piece = false ∧ entries.filter (P ·.1) = [] ∧
        entries.filter (!P ·.1) = entries := by
  obtain ⟨o, -, hArg, -, -, hSame⟩ := h.argOf?_eq hSound
  rw [names, hArg, Option.any_some]
  cases hNames : P o.arg with
  | true =>
      refine .inl ⟨rfl, List.filter_eq_self.2 fun e he => ?_, List.filter_eq_nil_iff.2 fun e he => ?_⟩
      · rw [hSame e he, hNames]
      · simp [hSame e he, hNames]
  | false =>
      refine .inr ⟨rfl, List.filter_eq_nil_iff.2 fun e he => ?_, List.filter_eq_self.2 fun e he => ?_⟩
      · simp [hSame e he, hNames]
      · simp [hSame e he, hNames]

/-- The pieces that name some arguments give all of them, and the others give all else. -/
theorem Spells.split {ps : List (List Word)} {gs : List Given} (h : List.Forall₂ l.Spells ps gs) :
    (∃ ks, List.Forall₂ l.Spells (ps.filter (l.names P)) ks ∧
      ks.flatten = gs.flatten.filter (P ·.1)) ∧
    ∃ ks, List.Forall₂ l.Spells (ps.filter (!l.names P ·)) ks ∧
      ks.flatten = gs.flatten.filter (!P ·.1) := by
  induction h with
  | nil => exact ⟨⟨[], .nil, rfl⟩, ⟨[], .nil, rfl⟩⟩
  | @cons piece entries ps gs hPiece _ ih =>
      obtain ⟨⟨ks, hSome, hFlat⟩, ⟨ms, hOthers, hRest⟩⟩ := ih
      rw [List.flatten_cons, List.filter_append, List.filter_append, List.filter_cons,
        List.filter_cons, ← hFlat, ← hRest]
      obtain ⟨hNames, hAll, hNone⟩ | ⟨hNames, hNone, hAll⟩ := hPiece.filter_cases hSound P
      · rw [hNames, hAll, hNone]
        exact ⟨⟨entries :: ks, .cons hPiece hSome, rfl⟩, ⟨ms, hOthers, rfl⟩⟩
      · rw [hNames, hNone, hAll]
        exact ⟨⟨ks, hSome, rfl⟩, ⟨entries :: ms, .cons hPiece hOthers, rfl⟩⟩

/-- The separator names nothing. -/
theorem names_separator (rest : List Word) : l.names P (separator :: rest) = false := by
  refine names_eq_false ?_ P rest
  cases hOption : l.optionOf? separator with
  | none => rfl
  | some o =>
      have hFound : (Text.Utf8.text? []).bind l.long? = some o := hOption
      obtain ⟨long, hName, hLong⟩ := Option.bind_eq_some_iff.1 hFound
      have hBytes := Text.Utf8.bytes_of_text? hName
      exact absurd hBytes (hSound.names.of_long? hLong).1

variable {P} {places : List PositionalSpec}

omit hSound in
/-- What fills places is none of the arguments in question. -/
theorem Fills.filter_eq {words : List Word} {filled : Given} (h : Fills places words filled)
    (hPlaces : ∀ p ∈ places, P p.arg = false) :
    filled.filter (P ·.1) = [] ∧ filled.filter (!P ·.1) = filled := by
  have hArgs : ∀ e ∈ filled, P e.1 = false := by
    intro e he
    obtain ⟨p, hp, hArg⟩ := List.mem_map.1 (h.arg_mem e he)
    rw [← hArg]
    exact hPlaces p hp
  exact ⟨List.filter_eq_nil_iff.2 fun e he => by simp [hArgs e he],
    List.filter_eq_self.2 fun e he => by simp [hArgs e he]⟩

/-- **The pieces of some options can be left out**, and with them goes what they give. -/
theorem Reads.split {ps : List (List Word)} {given : Given} (h : l.Reads places ps given)
    (hPlaces : ∀ p ∈ places, P p.arg = false) :
    (∃ ks, List.Forall₂ l.Spells (ps.filter (l.names P)) ks ∧
      ks.flatten = given.filter (P ·.1)) ∧
    l.Reads places (ps.filter (!l.names P ·)) (given.filter (!P ·.1)) := by
  induction h with
  | nothing places => exact ⟨⟨[], .nil, rfl⟩, .nothing places⟩
  | @option places piece pieces entries given hSpells _ ih =>
      obtain ⟨⟨ks, hSome, hFlat⟩, hRest⟩ := ih hPlaces
      rw [List.filter_append, List.filter_append, List.filter_cons, List.filter_cons, ← hFlat]
      obtain ⟨hNames, hAll, hNone⟩ | ⟨hNames, hNone, hAll⟩ := hSpells.filter_cases hSound P
      · rw [hNames, hAll, hNone]
        exact ⟨⟨entries :: ks, .cons hSpells hSome, rfl⟩, hRest⟩
      · rw [hNames, hNone, hAll]
        exact ⟨⟨ks, hSome, rfl⟩, .option hSpells hRest⟩
  | @place p rest word d pieces given hPlain hRead _ ih =>
      obtain ⟨hSome, hRest⟩ := ih fun q hq => hPlaces q (p.behind_subset rest hq)
      have hPlace := hPlaces p (.head _)
      have hNames := names_eq_false (optionOf?_plain hPlain) P [] (l := l)
      rw [List.filter_cons, List.filter_cons, List.filter_cons, List.filter_cons, hNames, hPlace]
      exact ⟨hSome, .place hPlain hRead hRest⟩
  | @separator places words given hFills =>
      obtain ⟨hNone, hAll⟩ := hFills.filter_eq hPlaces
      rw [List.filter_cons, List.filter_cons, names_separator hSound P words, hNone, hAll]
      exact ⟨⟨[], .nil, rfl⟩, .separator hFills⟩

/-- **Pieces of some options can be put between all others**, but not behind the separator, and what they
give is added. -/
theorem Reads.weave {ps : List (List Word)} {given : Given} {ks : List Given}
    (h : l.Reads places (ps.filter (!l.names P ·)) given)
    (hKs : List.Forall₂ l.Spells (ps.filter (l.names P)) ks)
    (hLast : ps.Pairwise fun piece _ => piece.head? ≠ some CommandLine.separator)
    (hPlaces : ∀ p ∈ places, P p.arg = false) :
    ∃ all, l.Reads places ps all ∧ all.filter (P ·.1) = ks.flatten ∧
      all.filter (!P ·.1) = given := by
  induction ps generalizing places given ks with
  | nil =>
      cases hKs
      cases h
      exact ⟨[], .nothing places, rfl, rfl⟩
  | cons piece ps ih =>
      obtain ⟨hHere, hLater⟩ := List.pairwise_cons.1 hLast
      rw [List.filter_cons] at h hKs
      cases hNames : l.names P piece with
      | true =>
          rw [hNames] at h hKs
          cases hKs with
          | @cons _ entries _ ks hPiece hKs =>
              obtain ⟨all, hReads, hSome, hOthers⟩ := ih h hKs hLater hPlaces
              obtain ⟨-, hAll, hNone⟩ | ⟨hNot, -, -⟩ := hPiece.filter_cases hSound P
              · refine ⟨entries ++ all, .option hPiece hReads, ?_, ?_⟩
                · rw [List.filter_append, hAll, hSome, List.flatten_cons]
                · rw [List.filter_append, hNone, hOthers, List.nil_append]
              · rw [hNames] at hNot
                cases hNot
      | false =>
          rw [hNames] at h hKs
          replace h : l.Reads places (piece :: ps.filter (!l.names P ·)) given := h
          generalize hPs : ps.filter (!l.names P ·) = others at h
          cases h with
          | @option _ _ _ entries given hPiece hRest =>
              subst hPs
              obtain ⟨all, hReads, hSome, hOthers⟩ := ih hRest hKs hLater hPlaces
              obtain ⟨hYes, -, -⟩ | ⟨-, hNone, hAll⟩ := hPiece.filter_cases hSound P
              · rw [hNames] at hYes
                cases hYes
              · refine ⟨entries ++ all, .option hPiece hReads, ?_, ?_⟩
                · rw [List.filter_append, hNone, hSome, List.nil_append]
                · rw [List.filter_append, hAll, hOthers]
          | @place p rest word d _ given hPlain hRead hRest =>
              subst hPs
              obtain ⟨all, hReads, hSome, hOthers⟩ :=
                ih hRest hKs hLater fun q hq => hPlaces q (p.behind_subset rest hq)
              refine ⟨(p.arg, d) :: all, .place hPlain hRead hReads, ?_, ?_⟩
              · rw [List.filter_cons, hPlaces p (.head _), if_neg Bool.false_ne_true, hSome]
              · rw [List.filter_cons, hPlaces p (.head _), hOthers]
                rfl
          | separator hFills =>
              -- Nothing stands behind the separator.
              obtain rfl : ps = [] := List.eq_nil_iff_forall_not_mem.2 fun q hq => hHere q hq rfl
              cases hKs
              obtain ⟨hNone, hAll⟩ := hFills.filter_eq hPlaces
              exact ⟨given, .separator hFills, hNone, hAll⟩

/-! ## Options of all levels -/

/-- No place takes an argument that is an option of all levels. -/
theorem IsSound.isGlobal_place {p : PositionalSpec} (h : p ∈ l.positionals) : p.arg.isGlobal = false := by
  cases hGlobal : p.arg.isGlobal with
  | false => rfl
  | true =>
      obtain ⟨o, hShared, hArg⟩ := List.any_eq_true.1 hGlobal
      have hOption := List.mem_of_find?_eq_some (hSound.global o hShared).1
      exact absurd (by simpa using hArg) (hSound.places p h o hOption)

/-- Of the options of all levels only the one that counts may be given again. -/
theorem IsSound.not_repeats {a : Arg} (hGlobal : a.isGlobal) (hOther : a ≠ .debug) : ¬l.Repeats a := by
  obtain ⟨o, hShared, hArg⟩ := List.any_eq_true.1 hGlobal
  obtain rfl : o.arg = a := by simpa using hArg
  intro hRepeats
  have hTable : ∀ o ∈ globalOptions, o.counts = true → o.arg = .debug := by decide
  have hOption := List.mem_of_find?_eq_some (hSound.global o hShared).1
  exact hOther (hTable o hShared (hRepeats o hOption rfl).1)

/-- What pieces of options give is what they name. -/
theorem Spells.has_iff {ps : List (List Word)} {gs : List Given} (h : List.Forall₂ l.Spells ps gs)
    (a : Arg) : Given.has gs.flatten a = true ↔ ∃ piece ∈ ps, l.argOf? piece = some a := by
  induction h with
  | nil => simp [Given.has]
  | @cons piece entries ps gs hPiece _ ih =>
      obtain ⟨o, -, hArg, -, hSome, hSame⟩ := hPiece.argOf?_eq hSound
      have hFirst : Given.has entries a = true ↔ l.argOf? piece = some a := by
        rw [hArg, Option.some.injEq, Given.has, List.any_eq_true]
        constructor
        · rintro ⟨e, he, hEq⟩
          rw [← hSame e he]
          simpa using hEq
        · rintro rfl
          obtain ⟨e, he⟩ := List.exists_mem_of_ne_nil entries hSome
          exact ⟨e, he, by simpa using hSame e he⟩
      rw [List.flatten_cons, Given.has_append, Bool.or_eq_true, hFirst, ih]
      simp

/-- What a level gives of the options of all levels is what its pieces name. -/
theorem Reads.has_iff {ps : List (List Word)} {given : Given} (h : l.Reads l.positionals ps given)
    {a : Arg} (hGlobal : a.isGlobal) : given.has a = true ↔ ∃ piece ∈ ps, l.argOf? piece = some a := by
  obtain ⟨⟨ks, hKs, hFlat⟩, -⟩ :=
    h.split hSound (P := Arg.isGlobal) fun p hp => hSound.isGlobal_place hp
  have hHas : Given.has ks.flatten a = given.has a := by
    rw [hFlat, Given.has_eq_isEmpty, Given.has_eq_isEmpty, Given.values_filter, if_pos hGlobal]
  rw [← hHas, Spells.has_iff hSound hKs]
  constructor
  · rintro ⟨piece, hMem, hArg⟩
    exact ⟨piece, (List.mem_filter.1 hMem).1, hArg⟩
  · rintro ⟨piece, hMem, hArg⟩
    exact ⟨piece, List.mem_filter.2 ⟨hMem, by simpa [names, hArg] using hGlobal⟩, hArg⟩

end Apart

/-- In front of the command word all options are options of all levels. -/
theorem isGlobal_top {piece : List Word} {entries : Given} (h : top.Spells piece entries) :
    top.names Arg.isGlobal piece = true ∧ ∀ e ∈ entries, e.1.isGlobal = true := by
  obtain ⟨o, hOption, hArg, hHelp, -, hSame⟩ := h.argOf?_eq (isSound none)
  have hTable : ∀ o ∈ (of none).options, o.arg ≠ .help → o.arg.isGlobal = true := by decide
  have hGlobal := hTable o hOption hHelp
  refine ⟨?_, fun e he => by rw [hSame e he, hGlobal]⟩
  rw [names, show top.argOf? piece = some o.arg from hArg]
  exact hGlobal

theorem isGlobal_of_gives {words : List Word} {given : Given} (h : top.Gives words given) :
    ∀ e ∈ given, e.1.isGlobal = true := by
  obtain ⟨ps, gs, hSpells, -, rfl⟩ := h
  induction hSpells with
  | nil => simp
  | cons hPiece _ ih =>
      rw [List.flatten_cons]
      exact List.forall_mem_append.2 ⟨(isGlobal_top hPiece).2, ih⟩

end Level

end ControlClient.CommandLine
