import ControlClient.Proofs.Span.Decimal
import ControlClient.Proofs.Text.Digits

/-!
# Spans read back

A span is written in one of five shapes, but each of them is a row of decimals with units, and reading
adds up what these are worth. So it is enough to know of every piece of the text what it is worth
(`IsWorth`) and that the pieces sum up to the span. No piece comes near the bounds within which the sum
is kept, since the whole is below `2 ^ 64` seconds.

## Main results

* `isWorth_written`: the notation of a span is worth the span.
* `read_text`: what is written of a span is read as the span.
* `text_injective`: different spans are written differently.
-/

namespace ControlClient.Span

open Text (digits)

/-! ## What a text is worth -/

/-- A text of plain segments that adds so many nanoseconds, where the sum is kept. -/
def IsWorth (cs : List Char) (nanos : Nat) : Prop :=
  ∃ ss : List Segment, cs = ss.flatMap Segment.text ∧ (∀ s ∈ ss, s.IsPlain) ∧
    ∀ total, total + nanos < accumulatorBound → sumFrom total ss = .ok (total + nanos)

theorem isWorth_nil : IsWorth [] 0 := ⟨[], rfl, by simp, fun _ _ => rfl⟩

private theorem sumFrom_append (total : Nat) (ss ts : List Segment) :
    sumFrom total (ss ++ ts) = (sumFrom total ss >>= fun total => sumFrom total ts) := by
  induction ss generalizing total with
  | nil => rfl
  | cons s rest ih =>
      rw [List.cons_append, sumFrom, sumFrom]
      cases s.nanos with
      | error e => rfl
      | ok nanos =>
          show (bounded _ (total + nanos) >>= _) = ((bounded _ (total + nanos) >>= _) >>= _)
          cases bounded (.fault .malformed) (total + nanos) with
          | error e => rfl
          | ok total => exact ih total

theorem IsWorth.append {cs ds : List Char} {n m : Nat} (h : IsWorth cs n) (hMore : IsWorth ds m) :
    IsWorth (cs ++ ds) (n + m) := by
  obtain ⟨ss, rfl, hPlain, hSum⟩ := h
  obtain ⟨ts, rfl, hOthers, hRest⟩ := hMore
  refine ⟨ss ++ ts, List.flatMap_append.symm, ?_, ?_⟩
  · intro s hs
    rcases List.mem_append.1 hs with hFirst | hSecond
    · exact hPlain s hFirst
    · exact hOthers s hSecond
  · intro total hBound
    rw [sumFrom_append, hSum total (by omega), ← Nat.add_assoc]
    exact hRest (total + n) (by omega)

/-- A decimal with a unit is worth as many units. -/
theorem isWorth_decimal {places factor : Nat} (value : Nat) {u : TimeUnit}
    (hUnit : u.nanos = Nat.pow 10 places * factor) (hPlaces : places ≤ fractionDigits) :
    IsWorth (decimal places value ++ u.symbol) (value * factor) := by
  refine ⟨[decimalSegment places value u], ?_, ?_, ?_⟩
  · rw [List.flatMap_singleton, text_decimalSegment]
  · intro s hs
    rw [List.mem_singleton.1 hs]
    exact isPlain_decimalSegment places value u
  · intro total hBound
    have hWorth : (decimalSegment places value u).nanos = .ok (value * factor) :=
      nanos_decimalSegment hUnit hPlaces (by omega)
    exact sumFrom_cons hWorth hBound []

/-- A decimal with as many places as its unit has is worth its digits. -/
theorem isWorth_exact {places : Nat} (value : Nat) {u : TimeUnit} (hUnit : u.nanos = Nat.pow 10 places)
    (hPlaces : places ≤ fractionDigits) : IsWorth (decimal places value ++ u.symbol) value := by
  have hWorth := isWorth_decimal value (hUnit.trans (Nat.mul_one _).symm) hPlaces
  rwa [Nat.mul_one] at hWorth

/-- A whole number of units, which is left out if it is none. -/
private theorem isWorth_optional {value : Nat} {u : TimeUnit} (p : Prop) [Decidable p]
    (hNone : p → value = 0) :
    IsWorth (if p then [] else digits value ++ u.symbol) (value * u.nanos) := by
  by_cases hp : p
  · rw [if_pos hp, hNone hp, Nat.zero_mul]
    exact isWorth_nil
  · have hDigits : digits value = decimal 0 value := by
      show _ = if value % 1 = 0 then digits (value / 1) else _
      rw [Nat.mod_one, if_pos rfl, Nat.div_one]
    rw [if_neg hp, hDigits]
    exact isWorth_decimal value (Nat.one_mul _).symm (by decide)

/-! ## What is written -/

private theorem isWorth_belowSecond (nanos : Nat) : IsWorth (belowSecond nanos) nanos := by
  unfold belowSecond
  by_cases hMicro : nanos < 1000
  · rw [if_pos hMicro]
    exact isWorth_exact nanos rfl (by decide)
  · rw [if_neg hMicro]
    by_cases hMilli : nanos < 1000000
    · rw [if_pos hMilli]
      exact isWorth_exact nanos rfl (by decide)
    · rw [if_neg hMilli]
      exact isWorth_exact nanos rfl (by decide)

private theorem isWorth_fromSecond (d : Span) : IsWorth d.fromSecond d.nanos := by
  have hHours := isWorth_optional (u := .hour) (d.seconds / 3600 = 0) id
  have hMinutes : IsWorth (if d.seconds / 3600 = 0 ∧ d.seconds % 3600 / 60 = 0 then [] else
      digits (d.seconds % 3600 / 60) ++ TimeUnit.minute.symbol)
      (d.seconds % 3600 / 60 * TimeUnit.minute.nanos) := isWorth_optional _ And.right
  have hRest : IsWorth (decimal 9 (d.seconds % 60 * nanosPerSecond + d.subseconds) ++
      TimeUnit.second.symbol) (d.seconds % 60 * nanosPerSecond + d.subseconds) :=
    isWorth_exact _ rfl (by decide)
  have hSum : d.seconds / 3600 * TimeUnit.hour.nanos +
      d.seconds % 3600 / 60 * TimeUnit.minute.nanos +
      (d.seconds % 60 * nanosPerSecond + d.subseconds) = d.nanos := by
    have hHour : TimeUnit.hour.nanos = 3600 * 1000000000 := rfl
    have hMinute : TimeUnit.minute.nanos = 60 * 1000000000 := rfl
    rw [hHour, hMinute]
    unfold seconds subseconds nanosPerSecond
    omega
  have hWhole := (hHours.append hMinutes).append hRest
  rw [hSum, ← List.append_assoc] at hWhole
  exact hWhole

/-- **The notation of a span is worth the span.** -/
theorem isWorth_written (d : Span) : IsWorth d.written d.nanos := by
  unfold written
  by_cases hZero : d.nanos = 0
  · rw [if_pos hZero, hZero]
    show IsWorth (decimal 9 0 ++ TimeUnit.second.symbol) 0
    exact isWorth_exact 0 rfl (by decide)
  · rw [if_neg hZero]
    by_cases hBelow : d.nanos < nanosPerSecond
    · rw [if_pos hBelow]
      exact isWorth_belowSecond d.nanos
    · rw [if_neg hBelow]
      exact isWorth_fromSecond d

/-- Every notation ends with the letter of the second, of which the smaller units are parts. -/
private theorem getLast?_written (d : Span) : d.written.getLast? = some 's' := by
  have hUnit : ∀ (cs : List Char) {u : TimeUnit}, u.symbol.getLast? = some 's' →
      (cs ++ u.symbol).getLast? = some 's' := by
    intro cs u hu
    rw [List.getLast?_append, hu, Option.some_or]
  unfold written belowSecond fromSecond
  by_cases hZero : d.nanos = 0
  · rw [if_pos hZero]
    rfl
  · rw [if_neg hZero]
    split
    · split
      · exact hUnit _ rfl
      · split <;> exact hUnit _ rfl
    · exact hUnit _ rfl

/-! ## Reading it -/

private theorem isBlank_of_startsNumber {c : Char} (h : startsNumber c = true) :
    Text.isBlank c = false := by
  rw [startsNumber, Bool.or_eq_true, beq_iff_eq] at h
  rcases h with hDigit | rfl
  · exact Text.isBlank_of_isDigit hDigit
  · decide

/-- **What is written of a span is read as the span.** -/
theorem read_text (d : Span) : Span.read d.text = .ok d := by
  obtain ⟨ss, hWritten, hPlain, hSum⟩ := isWorth_written d
  have hSeparable : ∀ s ∈ ss, s.IsSeparable := fun s hs => (hPlain s hs).isSeparable
  have hLast := getLast?_written d
  have hTrim : Text.trim d.written = d.written := by
    apply Text.trim_eq_self
    · intro c hc
      rw [hWritten] at hc
      exact isBlank_of_startsNumber (startsAnew_flatMap hSeparable c hc)
    · intro c hc
      rw [hLast, Option.mem_some] at hc
      rw [← hc]
      decide
  have hTotal : sumFrom 0 (segments d.written) = .ok d.nanos := by
    have hBound : d.nanos < accumulatorBound := Nat.lt_trans d.nanos_lt (by decide)
    rw [hWritten, segments_flatMap hSeparable, hSum 0 (by omega), Nat.zero_add]
  have hNotZero : d.written ≠ ['0'] := by
    intro hBare
    rw [hBare] at hLast
    exact absurd hLast (by decide)
  have hNotEmpty : ¬d.written.isEmpty = true := by
    intro hEmpty
    rw [List.isEmpty_iff.1 hEmpty] at hLast
    cases hLast
  rw [Span.read, text, String.toList_ofList, hTrim, readTrimmed, if_neg hNotZero, if_neg hNotEmpty,
    hTotal]
  simp only [bind, Except.bind, ofNanos?_nanos]
  rfl

/-- Different spans are written differently. -/
theorem text_injective {d e : Span} (h : d.text = e.text) : d = e := by
  have hSame : (Except.ok d : Except Halt Span) = .ok e := by
    rw [← read_text d, h, read_text e]
  exact Except.ok.inj hSame

end ControlClient.Span
