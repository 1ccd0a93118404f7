import ControlClient.Span.Notation

/-!
# Segments read back

Any text splits into segments, but a list of segments need not be the one that its text splits into: a
unit without characters would let the digits of the next segment run on. Segments that have a number and
a unit are safe (`Segment.IsSeparable`), and every span is written with such segments only, each of them
with digits in front of the point (`Segment.IsPlain`).

## Main results

* `segments_flatMap`: a text of separable segments splits into those segments.
* `flatMap_segments`: the segments of any text are the whole text.
* `nanos_of_unit`: what a segment counts for.
* `sumFrom_cons`: a segment adds what it is worth.
-/

namespace ControlClient.Span

/-- A segment that a text splits off as it stands: a digit or a point in front, and a unit behind. -/
structure Segment.IsSeparable (s : Segment) : Prop where
  starts : s.whole ≠ [] ∨ s.fraction? ≠ none
  whole_digits : ∀ c ∈ s.whole, c.isDigit = true
  fraction_digits : ∀ ds ∈ s.fraction?, ∀ c ∈ ds, c.isDigit = true
  unit_ne_nil : s.unit ≠ []
  unit_inside : ∀ c ∈ s.unit, startsNumber c = false

/-- A segment with digits in front and a unit behind them. -/
structure Segment.IsPlain (s : Segment) : Prop where
  whole_ne_nil : s.whole ≠ []
  whole_digits : ∀ c ∈ s.whole, c.isDigit = true
  fraction_digits : ∀ ds ∈ s.fraction?, ∀ c ∈ ds, c.isDigit = true
  unit_ne_nil : s.unit ≠ []
  unit_inside : ∀ c ∈ s.unit, startsNumber c = false

theorem Segment.IsPlain.isSeparable {s : Segment} (h : s.IsPlain) : s.IsSeparable where
  starts := .inl h.whole_ne_nil
  whole_digits := h.whole_digits
  fraction_digits := h.fraction_digits
  unit_ne_nil := h.unit_ne_nil
  unit_inside := h.unit_inside

/-- A text at whose start a unit ends. -/
def StartsAnew (cs : List Char) : Prop := ∀ c ∈ cs.head?, startsNumber c = true

namespace Segment.IsSeparable

variable {s : Segment} {rest : List Char}

private theorem text_eq_cons (h : s.IsSeparable) :
    ∃ c more, s.text = c :: more ∧ startsNumber c = true := by
  unfold Segment.text
  cases hWhole : s.whole with
  | cons c more =>
      have hDigit : c.isDigit = true := h.whole_digits c (by simp [hWhole])
      exact ⟨c, _, rfl, by rw [startsNumber, hDigit, Bool.true_or]⟩
  | nil =>
      -- A number without digits in front of its point starts with the point.
      obtain ⟨ds, hFraction⟩ := Option.ne_none_iff_exists'.1 (h.starts.resolve_left (absurd hWhole))
      rw [hFraction]
      exact ⟨'.', ds ++ s.unit, rfl, rfl⟩

theorem text_startsAnew (h : s.IsSeparable) (rest : List Char) : StartsAnew (s.text ++ rest) := by
  obtain ⟨c, more, hText, hStart⟩ := h.text_eq_cons
  intro d hd
  rw [hText, List.cons_append, List.head?_cons, Option.mem_some] at hd
  rwa [← hd]

theorem text_ne_nil (h : s.IsSeparable) : s.text ≠ [] := by
  obtain ⟨c, more, hText, -⟩ := h.text_eq_cons
  rw [hText]
  exact List.cons_ne_nil c more

private theorem scan_unit (h : s.IsSeparable) (hRest : StartsAnew rest) :
    (s.unit ++ rest).takeWhile (!startsNumber ·) = s.unit ∧
      (s.unit ++ rest).dropWhile (!startsNumber ·) = rest := by
  have hUnit : ∀ c ∈ s.unit, (!startsNumber c) = true := by
    intro c hc
    simp [h.unit_inside c hc]
  rw [List.takeWhile_append_of_pos hUnit, List.dropWhile_append_of_pos hUnit]
  cases rest with
  | nil => simp
  | cons d more =>
      have hStart : startsNumber d = true := hRest d rfl
      simp [hStart]

private theorem unit_eq_cons (h : s.IsSeparable) :
    ∃ c more, s.unit = c :: more ∧ c.isDigit = false ∧ c ≠ '.' := by
  obtain ⟨c, more, hUnit⟩ := List.exists_cons_of_ne_nil h.unit_ne_nil
  have hInside := h.unit_inside c (by simp [hUnit])
  rw [startsNumber, Bool.or_eq_false_iff, beq_eq_false_iff_ne] at hInside
  exact ⟨c, more, hUnit, hInside⟩

private theorem digits_end {ds : List Char} (hDigits : ∀ c ∈ ds, c.isDigit = true)
    {tail : List Char} (hTail : ∀ c ∈ tail.head?, c.isDigit = false) :
    (ds ++ tail).takeWhile Char.isDigit = ds ∧ (ds ++ tail).dropWhile Char.isDigit = tail := by
  rw [List.takeWhile_append_of_pos hDigits, List.dropWhile_append_of_pos hDigits]
  cases tail with
  | nil => simp
  | cons c more =>
      have hOther : c.isDigit = false := hTail c rfl
      simp [hOther]

private theorem splitFraction_append (h : s.IsSeparable) (rest : List Char) :
    splitFraction (fractionText s.fraction? ++ (s.unit ++ rest)) = (s.fraction?, s.unit ++ rest) := by
  obtain ⟨c, more, hUnit, hDigit, hPoint⟩ := h.unit_eq_cons
  cases hFraction : s.fraction? with
  | none =>
      show splitFraction (s.unit ++ rest) = _
      rw [hUnit, List.cons_append]
      unfold splitFraction
      split
      · next hSame => exact absurd (List.cons.inj hSame).1 hPoint
      · rfl
  | some ds =>
      have hTail : ∀ d ∈ (s.unit ++ rest).head?, d.isDigit = false := by
        rw [hUnit]
        simpa using hDigit
      have hEnd := digits_end (h.fraction_digits ds hFraction) hTail
      show splitFraction ('.' :: (ds ++ (s.unit ++ rest))) = _
      rw [splitFraction, hEnd.1, hEnd.2]

/-- A separable segment is the first segment of a text that starts anew behind it. -/
theorem scan (h : s.IsSeparable) (hRest : StartsAnew rest) : Segment.scan (s.text ++ rest) = (s, rest) := by
  obtain ⟨c, more, hUnit, hDigit, -⟩ := h.unit_eq_cons
  have hTail : ∀ d ∈ (fractionText s.fraction? ++ (s.unit ++ rest)).head?, d.isDigit = false := by
    cases s.fraction? with
    | none =>
        rw [hUnit]
        simpa [fractionText] using hDigit
    | some ds => simp [fractionText]
  obtain ⟨hWhole, hAfter⟩ := digits_end h.whole_digits hTail
  obtain ⟨hTake, hDrop⟩ := h.scan_unit hRest
  rw [Segment.text, List.append_assoc, List.append_assoc, Segment.scan, hWhole, hAfter]
  simp only [h.splitFraction_append rest, hTake, hDrop]

end Segment.IsSeparable

theorem startsAnew_flatMap {ss : List Segment} (h : ∀ s ∈ ss, s.IsSeparable) :
    StartsAnew (ss.flatMap Segment.text) := by
  cases ss with
  | nil => simp [StartsAnew]
  | cons s rest => exact (h s (by simp)).text_startsAnew _

/-- **A text of separable segments splits into those segments.** -/
theorem segments_flatMap {ss : List Segment} (h : ∀ s ∈ ss, s.IsSeparable) :
    segments (ss.flatMap Segment.text) = ss := by
  induction ss with
  | nil => simp [segments]
  | cons s rest ih =>
      have hFirst : s.IsSeparable := h s (by simp)
      have hOthers : ∀ t ∈ rest, t.IsSeparable := fun t ht => h t (List.mem_cons_of_mem _ ht)
      have hScan := hFirst.scan (startsAnew_flatMap hOthers)
      rw [List.flatMap_cons]
      obtain ⟨c, more, hText⟩ := List.exists_cons_of_ne_nil hFirst.text_ne_nil
      rw [hText, List.cons_append] at hScan ⊢
      rw [segments, hScan]
      exact congrArg (s :: ·) (ih hOthers)

/-- The segments of a text are the whole text. -/
theorem flatMap_segments (cs : List Char) : (segments cs).flatMap Segment.text = cs := by
  induction cs using segments.induct with
  | case1 => simp [segments]
  | case2 c cs ih =>
      rw [segments, List.flatMap_cons, ih]
      exact Segment.text_scan (c :: cs)

/-! ## Checked steps -/

section Checked

variable {α : Type} {n : Nat} (beyond : Halt) (next : Nat → Except Halt α)

theorem bounded_bind_of_lt (h : n < accumulatorBound) : (bounded beyond n >>= next) = next n := by
  rw [bounded, if_pos h]
  rfl

theorem bounded_eq_ok_iff {beyond : Halt} {m : Nat} :
    bounded beyond n = .ok m ↔ n < accumulatorBound ∧ n = m := by
  unfold bounded
  split
  · next hBelow => simp [hBelow]
  · next hBeyond => simp [hBeyond]

theorem bounded_eq_error_iff {beyond halt : Halt} :
    bounded beyond n = .error halt ↔ accumulatorBound ≤ n ∧ beyond = halt := by
  unfold bounded
  split
  · next hBelow => simp [Nat.not_le.2 hBelow]
  · next hBeyond => simp [Nat.not_lt.1 hBeyond]

end Checked

/-- What a segment with digits and a unit counts for. -/
theorem nanos_of_unit {s : Segment} {u : TimeUnit}
    (hSome : (s.whole.isEmpty && (s.fraction?.getD []).isEmpty) = false)
    (hUnit : TimeUnit.ofName? s.unit = some u) :
    s.nanos = bounded (.fault .malformed) (Text.ofDigits s.whole) >>= fun whole =>
      bounded (.fault .malformed) (whole * u.nanos) >>= fun product =>
        bounded .overflow (product + fractionNanos u (s.fraction?.getD [])) := by
  unfold Segment.nanos
  simp only [hSome, hUnit]
  rfl

/-- A segment adds what it is worth. -/
theorem sumFrom_cons {s : Segment} {total nanos : Nat} (hWorth : s.nanos = .ok nanos)
    (hBound : total + nanos < accumulatorBound) (rest : List Segment) :
    sumFrom total (s :: rest) = sumFrom (total + nanos) rest := by
  rw [sumFrom, hWorth]
  exact bounded_bind_of_lt _ _ hBound

end ControlClient.Span
