import ControlClient.Proofs.Span.Sums

/-!
# What is read as a span

A text is a bare `0`, or one segment after another, each a number and the name of a unit. The reader does
not know of this grammar: it takes digits, looks for a point, and calls a unit whatever stands in front of
the next digit or point. Both come to the same, since a number starts with a digit or a point and the name
of a unit has neither: a text of the grammar can be split in one way only, and the reader finds it.

## Main results

* `denotes_iff`: splitting decides the grammar.
* `read_denoted`: what is read is what the grammar says, and nothing else is read.
* `read_of_unknown_behind`: a text that is not in the grammar and is not refused either.
-/

namespace ControlClient

/-! ## Units -/

/-- The names that a unit goes by. -/
def TimeUnit.names : TimeUnit → List (List Char)
  | nanosecond => [['n', 's']]
  | microsecond => [['u', 's'], ['\u00b5', 's'], ['\u03bc', 's']]
  | millisecond => [['m', 's']]
  | second => [['s']]
  | minute => [['m']]
  | hour => [['h']]

theorem TimeUnit.ofName?_eq_some_iff {name : List Char} {u : TimeUnit} :
    ofName? name = some u ↔ name ∈ u.names := by
  constructor
  · intro h
    unfold ofName? at h
    split_ifs at h with hNano hMicro hMilli hSecond hMinute hHour <;> cases h <;> simp_all [names]
  · intro h
    cases u <;> simp only [names, List.mem_cons, List.not_mem_nil, or_false] at h
    case microsecond => rcases h with rfl | rfl | rfl <;> rfl
    all_goals rw [h]; rfl

/-- The name of a unit has no digit and no point, and is not empty. -/
theorem TimeUnit.name_spec {name : List Char} {u : TimeUnit} (h : name ∈ u.names) :
    name ≠ [] ∧ ∀ c ∈ name, Span.startsNumber c = false := by
  have hAll : ∀ name ∈ u.names, name ≠ [] ∧ name.all (Span.startsNumber · = false) := by
    cases u <;> decide
  obtain ⟨hSome, hNone⟩ := hAll name h
  exact ⟨hSome, by simpa using hNone⟩

namespace Span

open Text (AreDigits ofDigits)

/-! ## The grammar -/

/-- The forms of a number: digits, digits in front of a point with or without digits behind it, and
digits behind a point. -/
inductive IsNumber : List Char → Option (List Char) → Prop
  | natural {ds : List Char} : ds ≠ [] → AreDigits ds → IsNumber ds none
  | decimal {ds fs : List Char} : ds ≠ [] → AreDigits ds → AreDigits fs → IsNumber ds (some fs)
  | fraction {fs : List Char} : fs ≠ [] → AreDigits fs → IsNumber [] (some fs)

/-- What a segment denotes that is a number and the name of a unit. Of the digits behind the point up to
eighteen count, and what they are worth is rounded down to a nanosecond. -/
inductive Segment.Denotes (s : Segment) : Nat → Prop
  | intro (u : TimeUnit) : IsNumber s.whole s.fraction? → s.unit ∈ u.names →
      s.Denotes (ofDigits s.whole * u.nanos +
        ofDigits ((s.fraction?.getD []).take 18) * u.nanos / 10 ^ min 18 (s.fraction?.getD []).length)

/-- What a text of the grammar denotes: a bare `0` nothing, and segments the sum of what each denotes. -/
inductive Denotes : List Char → Nat → Prop
  | zero : Denotes ['0'] 0
  | sum {ss : List Segment} {ns : List Nat} : ss ≠ [] → List.Forall₂ Segment.Denotes ss ns →
      Denotes (ss.flatMap Segment.text) ns.sum

/-- A number consists of digits, and has some on one side of its point. -/
theorem isNumber_iff {ds : List Char} {fraction? : Option (List Char)} :
    IsNumber ds fraction? ↔ (ds.isEmpty && (fraction?.getD []).isEmpty) = false ∧
      AreDigits ds ∧ AreDigits (fraction?.getD []) := by
  have hNone : AreDigits [] := by simp [AreDigits]
  constructor
  · intro h
    cases h with
    | natural hSome hDigits => exact ⟨by simp [hSome], hDigits, hNone⟩
    | decimal hSome hDigits hFraction => exact ⟨by simp [hSome], hDigits, hFraction⟩
    | fraction hSome hFraction => exact ⟨by simp [hSome], hNone, hFraction⟩
  · rintro ⟨hSome, hDigits, hFraction⟩
    by_cases hWhole : ds = []
    · subst hWhole
      cases fraction? with
      | none => cases hSome
      | some fs => exact .fraction (by simpa using hSome) hFraction
    · cases fraction? with
      | none => exact .natural hWhole hDigits
      | some fs => exact .decimal hWhole hDigits hFraction

namespace Segment.Denotes

variable {s : Segment} {n : Nat}

theorem isSeparable (h : s.Denotes n) : s.IsSeparable := by
  obtain ⟨u, hNumber, hUnit⟩ := h
  obtain ⟨hSome, hWhole, hFraction⟩ := isNumber_iff.1 hNumber
  obtain ⟨hUnitSome, hUnitInside⟩ := TimeUnit.name_spec hUnit
  refine ⟨?_, hWhole, ?_, hUnitSome, hUnitInside⟩
  · by_contra hNone
    rw [not_or, not_not, not_not] at hNone
    rw [hNone.1, hNone.2] at hSome
    cases hSome
  · intro fs hfs
    rwa [hfs] at hFraction

/-- **A segment of the grammar is worth what it denotes.** -/
theorem worth? (h : s.Denotes n) : s.worth? = some n := by
  obtain ⟨u, hNumber, hUnit⟩ := h
  refine worth?_eq_some_iff.2 ⟨(isNumber_iff.1 hNumber).1, u, TimeUnit.ofName?_eq_some_iff.2 hUnit, ?_⟩
  rw [worthIn, fractionNanos, List.length_take]
  rfl

end Segment.Denotes

/-! ## What the reader finds -/

/-- A segment of a text that is worth something is a segment of the grammar. -/
theorem denotes_of_worth? {cs : List Char} {s : Segment} {n : Nat} (h : s ∈ segments cs)
    (hWorth : s.worth? = some n) : s.Denotes n := by
  obtain ⟨hSome, u, hUnit, rfl⟩ := Segment.worth?_eq_some_iff.1 hWorth
  have hNumber : IsNumber s.whole s.fraction? :=
    isNumber_iff.2 ⟨hSome, areDigits_of_mem_segments h⟩
  have hDenotes := Segment.Denotes.intro u hNumber (TimeUnit.ofName?_eq_some_iff.1 hUnit)
  rw [Segment.worthIn, fractionNanos, List.length_take]
  exact hDenotes

/-! ## Both ways -/

/-- **Splitting decides the grammar**: what a text denotes is the sum of what its segments are worth. -/
theorem denotes_iff {cs : List Char} {n : Nat} :
    Denotes cs n ↔
      cs = ['0'] ∧ n = 0 ∨ cs ≠ [] ∧ ∃ ns, worths? cs = some ns ∧ ns.sum = n := by
  constructor
  · intro h
    cases h with
    | zero => exact .inl ⟨rfl, rfl⟩
    | @sum ss ns hSome hEach =>
        have hSeparable : ∀ s ∈ ss, s.IsSeparable := by
          intro s hs
          obtain ⟨n, hDenotes⟩ := Text.exists_forall₂_iff.1 ⟨ns, hEach⟩ s hs
          exact hDenotes.isSeparable
        have hSegments := segments_flatMap hSeparable
        refine .inr ⟨?_, ns, ?_, rfl⟩
        · intro hNone
          rw [hNone, segments] at hSegments
          exact hSome hSegments.symm
        · rw [worths?, hSegments]
          exact Text.mapM_eq_some_iff.2 (hEach.imp fun s n h => h.worth?)
  · rintro (⟨rfl, rfl⟩ | ⟨hText, ns, hWorths, rfl⟩)
    · exact .zero
    · have hSome : segments cs ≠ [] := by
        intro hNone
        apply hText
        rw [← flatMap_segments cs, hNone, List.flatMap_nil]
      have hEach := (List.forall₂_and_left _ _).2 ⟨fun _ hs => hs, Text.mapM_eq_some_iff.1 hWorths⟩
      have hDenotes := Denotes.sum hSome (hEach.imp fun s n h => denotes_of_worth? h.1 h.2)
      rwa [flatMap_segments] at hDenotes

/-- **What is read is what the grammar says**: a text is read as a span if it denotes that many
nanoseconds, and only then. -/
theorem readTrimmed_eq_ok_iff_denotes {cs : List Char} {d : Span} :
    readTrimmed cs = .ok d ↔ Denotes cs d.nanos :=
  readTrimmed_eq_ok_iff.trans denotes_iff.symm

/-- **What is read, and what is refused.** A text is read as a span if it denotes that many nanoseconds,
blanks around it apart, and only then. So a text that is not in the grammar is never read, and a text of the
grammar is read as what it denotes, if that is below `2 ^ 64` seconds. What is not read is refused, unless it
overflows. -/
theorem read_denoted (input : String) :
    (∀ d, Span.read input = .ok d ↔ Denotes (Text.trim input.toList) d.nanos) ∧
    (∀ n (hSpan : n < secondsBound * nanosPerSecond), Denotes (Text.trim input.toList) n →
      Span.read input = .ok ⟨n, hSpan⟩) ∧
    (Span.read input = .error .overflow ↔ Overflows (Text.trim input.toList)) ∧
    ((¬∃ n, Denotes (Text.trim input.toList) n) → ¬Overflows (Text.trim input.toList) →
      ∃ fault, Span.read input = .error (.fault fault)) := by
  have hRead : ∀ d, Span.read input = .ok d ↔ Denotes (Text.trim input.toList) d.nanos :=
    fun d => readTrimmed_eq_ok_iff_denotes
  have hOverflow : Span.read input = .error .overflow ↔ Overflows (Text.trim input.toList) :=
    readTrimmed_eq_overflow_iff
  refine ⟨hRead, fun n hSpan hDenotes => (hRead _).2 hDenotes, hOverflow, ?_⟩
  intro hOutside hKept
  cases hResult : Span.read input with
  | ok d => exact absurd ⟨_, (hRead d).1 hResult⟩ hOutside
  | error halt =>
      cases halt with
      | fault f => exact ⟨f, rfl⟩
      | overflow => exact absurd (hOverflow.1 hResult) hKept

/-- A text with a segment that is worth nothing is not in the grammar. -/
private theorem not_denotes {cs : List Char} (hZero : cs ≠ ['0']) (hNone : worths? cs = none) :
    ¬∃ n, Denotes cs n := by
  rintro ⟨n, h⟩
  rcases denotes_iff.1 h with ⟨hBare, -⟩ | ⟨-, ns, hWorths, -⟩
  · exact hZero hBare
  · rw [hNone] at hWorths
    cases hWorths

/-- A point without digits on one of its sides, the Greek spelling of a unit and digits beyond a nanosecond
are read; a number with two points is not. -/
theorem read_denoted_spellings :
    (¬∃ n, Denotes (Text.trim "1.2.3s".toList) n) ∧ ¬Overflows (Text.trim "1.2.3s".toList) ∧
    (∃ fault, Span.read "1.2.3s" = .error (.fault fault)) ∧
    Denotes (Text.trim " 1.s.5s1.9999\u03bcs\n".toList) 1500001999 ∧
    Span.read " 1.s.5s1.9999\u03bcs\n" = .ok ⟨1500001999, by decide⟩ := by
  have hOutside : ¬∃ n, Denotes (Text.trim "1.2.3s".toList) n :=
    not_denotes (by decide +kernel) (by decide +kernel)
  have hInside : Denotes (Text.trim " 1.s.5s1.9999\u03bcs\n".toList) 1500001999 :=
    denotes_iff.2 (.inr ⟨by decide +kernel, [1000000000, 500000000, 1999], by decide +kernel, rfl⟩)
  obtain ⟨-, -, hOverflow, hRefused⟩ := read_denoted "1.2.3s"
  have hKept : ¬Overflows (Text.trim "1.2.3s".toList) := by
    rw [← hOverflow]
    decide +kernel
  exact ⟨hOutside, hKept, hRefused hOutside hKept, hInside, (read_denoted _).2.1 _ _ hInside⟩

/-- **A text that is not in the grammar and is not refused**: reading breaks off at its first segment, before
it comes to a unit that there is not. -/
theorem read_of_unknown_behind :
    (¬∃ n, Denotes (Text.trim "94522879700260684295381835.999999999999h1x".toList) n) ∧
    Span.read "94522879700260684295381835.999999999999h1x" = .error .overflow :=
  ⟨not_denotes (by decide +kernel) (by decide +kernel), by decide +kernel⟩

end Span

end ControlClient
