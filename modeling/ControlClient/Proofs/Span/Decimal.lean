import ControlClient.Proofs.Span.Segments
import ControlClient.Proofs.Text.Digits
import ControlClient.Span.Canonical

/-!
# Decimals read back

A decimal is written without the zeros at its end and read by the digits that are left, which count as
many tenths of tenths as there are of them. Nothing is lost either way: the zeros that were dropped are
the power of ten by which the number that is left falls short.

## Main results

* `fraction_spec`: what is written behind the point.
* `nanos_decimalSegment`: what a decimal with a unit is worth.
-/

namespace ControlClient.Span

open Text (AreDigits areDigits_append areDigits_digits areDigits_digitsPadded digits digitsPadded
  length_digitsPadded ofDigits ofDigits_append ofDigits_digits ofDigits_digitsPadded
  ofDigits_zeros)

/-! ## Digits behind the point -/

theorem ofDigits_append_zeros (cs : List Char) (n : Nat) :
    ofDigits (cs ++ List.replicate n '0') = ofDigits cs * Nat.pow 10 n := by
  rw [ofDigits_append, ofDigits_zeros, List.length_replicate]
  rfl

theorem dropTrailingZeros_append (cs : List Char) :
    ∃ k, dropTrailingZeros cs ++ List.replicate k '0' = cs := by
  refine ⟨(cs.reverse.takeWhile (· == '0')).length, ?_⟩
  have hZeros : cs.reverse.takeWhile (· == '0') =
      List.replicate (cs.reverse.takeWhile (· == '0')).length '0' := by
    rw [List.eq_replicate_iff]
    refine ⟨rfl, fun c hc => ?_⟩
    exact beq_iff_eq.1 (List.all_eq_true.1 List.all_takeWhile c hc)
  apply List.reverse_inj.1
  rw [List.reverse_append, List.reverse_replicate, dropTrailingZeros, List.reverse_reverse, ← hZeros]
  exact List.takeWhile_append_dropWhile

theorem areDigits_fraction (places value : Nat) :
    AreDigits (dropTrailingZeros (digitsPadded places value)) := by
  have hDigits := areDigits_digitsPadded places value
  obtain ⟨k, hAppend⟩ := dropTrailingZeros_append (digitsPadded places value)
  rw [← hAppend] at hDigits
  exact (areDigits_append.1 hDigits).1

/-- **What is written behind the point**: digits that, with the zeros that were dropped, are the value.
-/
theorem fraction_spec {places value : Nat} (hValue : value ≠ 0) (hLt : value < Nat.pow 10 places) :
    ∃ ds k, dropTrailingZeros (digitsPadded places value) = ds ∧ ds.length + k = places ∧
      ofDigits ds * Nat.pow 10 k = value := by
  obtain ⟨k, hAppend⟩ := dropTrailingZeros_append (digitsPadded places value)
  have hPlaces : 0 < places := by
    apply Nat.pos_of_ne_zero
    rintro rfl
    exact hValue (Nat.lt_one_iff.1 hLt)
  have hWorth : ofDigits (dropTrailingZeros (digitsPadded places value)) * Nat.pow 10 k = value := by
    rw [← ofDigits_append_zeros, hAppend, ofDigits_digitsPadded]
  refine ⟨_, k, rfl, ?_, hWorth⟩
  have hLength := congrArg List.length hAppend
  rwa [List.length_append, List.length_replicate, length_digitsPadded hPlaces hLt] at hLength

/-! ## Decimals with a unit -/

/-- The segment of `value / 10 ^ places` in a unit. -/
def decimalSegment (places value : Nat) (u : TimeUnit) : Segment where
  whole := digits (value / Nat.pow 10 places)
  fraction? :=
    if value % Nat.pow 10 places = 0 then none
    else some (dropTrailingZeros (digitsPadded places (value % Nat.pow 10 places)))
  unit := u.symbol

theorem text_decimalSegment (places value : Nat) (u : TimeUnit) :
    (decimalSegment places value u).text = decimal places value ++ u.symbol := by
  unfold decimal Segment.text decimalSegment
  by_cases h : value % Nat.pow 10 places = 0
  · simp only [h, if_true, fractionText, List.append_nil]
  · simp only [h, if_false, fractionText]

private theorem symbol_plain (u : TimeUnit) :
    u.symbol ≠ [] ∧ u.symbol.all (!startsNumber ·) = true := by
  cases u <;> exact ⟨List.cons_ne_nil _ _, rfl⟩

theorem isPlain_decimalSegment (places value : Nat) (u : TimeUnit) :
    (decimalSegment places value u).IsPlain where
  whole_ne_nil := Text.digits_ne_nil _
  whole_digits := areDigits_digits _
  fraction_digits := by
    intro ds hds
    unfold decimalSegment at hds
    by_cases h : value % Nat.pow 10 places = 0
    · simp only [h, if_true] at hds
      cases hds
    · simp only [h, if_false, Option.mem_def, Option.some.injEq] at hds
      rw [← hds]
      exact areDigits_fraction _ _
  unit_ne_nil := (symbol_plain u).1
  unit_inside := by
    intro c hc
    simpa using List.all_eq_true.1 (symbol_plain u).2 c hc

/-- The digits behind the point are worth the fraction, in a unit that such a decimal divides. -/
private theorem fractionNanos_eq {places value factor : Nat} {u : TimeUnit} {ds : List Char} {k : Nat}
    (hUnit : u.nanos = Nat.pow 10 places * factor) (hPlaces : places ≤ fractionDigits)
    (hLength : ds.length + k = places) (hWorth : ofDigits ds * Nat.pow 10 k = value) :
    fractionNanos u ds = value * factor := by
  have hTake : ds.take fractionDigits = ds := List.take_of_length_le (by omega)
  have hPow : Nat.pow 10 places = Nat.pow 10 ds.length * Nat.pow 10 k := by
    rw [← hLength]
    exact Nat.pow_add 10 ds.length k
  have hPositive : 0 < Nat.pow 10 ds.length := Nat.pow_pos (by decide)
  unfold fractionNanos
  rw [hTake, hUnit, hPow, ← hWorth]
  apply Nat.div_eq_of_eq_mul_right hPositive
  ac_rfl

private theorem nanos_of_bounds {s : Segment} {u : TimeUnit} {ds : List Char}
    (hWhole : s.whole ≠ []) (hUnit : s.unit = u.symbol) (hFraction : s.fraction?.getD [] = ds)
    (hDigits : ofDigits s.whole < accumulatorBound)
    (hBound : ofDigits s.whole * u.nanos + fractionNanos u ds < accumulatorBound) :
    s.nanos = .ok (ofDigits s.whole * u.nanos + fractionNanos u ds) := by
  have hSome : (s.whole.isEmpty && (s.fraction?.getD []).isEmpty) = false := by simp [hWhole]
  have hName : TimeUnit.ofName? s.unit = some u := by rw [hUnit, TimeUnit.ofName?_symbol]
  rw [nanos_of_unit hSome hName, bounded_bind_of_lt _ _ hDigits, bounded_bind_of_lt _ _ (by omega), hFraction]
  exact if_pos hBound

private theorem fractionNanos_decimalSegment {places factor : Nat} (value : Nat) {u : TimeUnit}
    (hUnit : u.nanos = Nat.pow 10 places * factor) (hPlaces : places ≤ fractionDigits) :
    fractionNanos u ((decimalSegment places value u).fraction?.getD []) =
      value % Nat.pow 10 places * factor := by
  have hScale : 0 < Nat.pow 10 places := Nat.pow_pos (by decide)
  unfold decimalSegment
  by_cases h : value % Nat.pow 10 places = 0
  · have hNothing : fractionNanos u [] = 0 := by
      show 0 * u.nanos / Nat.pow 10 0 = 0
      rw [Nat.zero_mul, Nat.zero_div]
    simp only [h, if_true, Option.getD_none, hNothing, Nat.zero_mul]
  · obtain ⟨ds, k, hDigits, hLength, hWorth⟩ := fraction_spec h (Nat.mod_lt value hScale)
    simp only [h, if_false, Option.getD_some, hDigits]
    exact fractionNanos_eq hUnit hPlaces hLength hWorth

/-- **What a decimal with a unit is worth.** -/
theorem nanos_decimalSegment {places value factor : Nat} {u : TimeUnit}
    (hUnit : u.nanos = Nat.pow 10 places * factor) (hPlaces : places ≤ fractionDigits)
    (hBound : value * factor < accumulatorBound) :
    (decimalSegment places value u).nanos = .ok (value * factor) := by
  have hFactor : 0 < factor := by
    apply Nat.pos_of_ne_zero
    rintro rfl
    rw [Nat.mul_zero] at hUnit
    cases u <;> exact absurd hUnit (by decide)
  have hWhole : ofDigits (decimalSegment places value u).whole = value / Nat.pow 10 places :=
    ofDigits_digits _
  have hDigits : value / Nat.pow 10 places < accumulatorBound :=
    calc value / Nat.pow 10 places ≤ value := Nat.div_le_self _ _
      _ ≤ value * factor := Nat.le_mul_of_pos_right value hFactor
      _ < accumulatorBound := hBound
  have hSum : value / Nat.pow 10 places * u.nanos + value % Nat.pow 10 places * factor =
      value * factor := by
    have hDivision := Nat.div_add_mod value (Nat.pow 10 places)
    rw [hUnit, ← Nat.mul_assoc, ← Nat.add_mul, Nat.mul_comm (value / _), hDivision]
  have hFraction := fractionNanos_decimalSegment value hUnit hPlaces
  rw [nanos_of_bounds (Text.digits_ne_nil _) rfl rfl (by rwa [hWhole]) (by rwa [hWhole, hFraction, hSum]),
    hWhole, hFraction, hSum]

end ControlClient.Span
