import ControlClient.Proofs.Span.RoundTrip

/-!
# Which texts are written of spans

The notation of a span is described here by its form alone, without the printer: numbers without zeros in
front, fractions without zeros at their end, and for each number the range in which it may be. The printer
writes exactly these texts. What it writes has the form, which is read off its five cases; and a text of the
form is what is written of the span that its numbers make up, since a numeral is how its number is written
and digits behind the point are determined by their number and their length.

## Main results

* `decimal_eq`: a decimal is its whole part and what is left of the rest without zeros at its end.
* `isFraction_iff`: which texts stand behind the digits of a decimal.
* `isCanonical_written`, `exists_written`: what is written has the form, and all that has the form is written.
* `canonical_text`: reading a canonical text and writing what was read gives the text.
-/

namespace ControlClient.Span

open Text (AreDigits IsNumeral areDigits_append areDigits_digitsPadded areDigits_zeros digits digitsPadded
  eq_of_ofDigits_eq length_digitsPadded ofDigits ofDigits_append ofDigits_digitsPadded)

/-! ## The form -/

/-- What stands behind the digits of a number: nothing, or a point and at most so many digits of which the
last is no zero. -/
inductive IsFraction (places : Nat) : List Char → Prop
  | none : IsFraction places []
  | some {fs : List Char} : fs ≠ [] → AreDigits fs → fs.getLast? ≠ some '0' → fs.length ≤ places →
      IsFraction places ('.' :: fs)

/-- The units below a second, and how many digits may stand behind the point in each. -/
def fineUnits : List (List Char × Nat) := [(['n', 's'], 0), (['\u00b5', 's'], 3), (['m', 's'], 6)]

/-- The canonical texts: no time at all, less than a second in the greatest unit of which there is one, and
a second or more in hours, minutes and seconds, of which none stands in front of the first there is. -/
inductive IsCanonical : List Char → Prop
  | zero : IsCanonical ['0', 's']
  | belowSecond {n f unit : List Char} {places : Nat} : (unit, places) ∈ fineUnits →
      IsNumeral n → 1 ≤ ofDigits n → ofDigits n ≤ 999 → IsFraction places f → IsCanonical (n ++ f ++ unit)
  | seconds {s f : List Char} : IsNumeral s → 1 ≤ ofDigits s → ofDigits s ≤ 59 → IsFraction 9 f →
      IsCanonical (s ++ f ++ ['s'])
  | minutes {m s f : List Char} : IsNumeral m → 1 ≤ ofDigits m → ofDigits m ≤ 59 →
      IsNumeral s → ofDigits s ≤ 59 → IsFraction 9 f → IsCanonical (m ++ ['m'] ++ s ++ f ++ ['s'])
  | hours {h m s f : List Char} : IsNumeral h → 1 ≤ ofDigits h → IsNumeral m → ofDigits m ≤ 59 →
      IsNumeral s → ofDigits s ≤ 59 → IsFraction 9 f →
      ofDigits h * 3600 + ofDigits m * 60 + ofDigits s < 2 ^ 64 →
      IsCanonical (h ++ ['h'] ++ m ++ ['m'] ++ s ++ f ++ ['s'])

/-! ## Zeros at the end -/

theorem getLast?_dropTrailingZeros (cs : List Char) : (dropTrailingZeros cs).getLast? ≠ some '0' := by
  intro hLast
  have hDrop := List.head?_dropWhile_not (· == '0') cs.reverse
  rw [dropTrailingZeros, List.getLast?_reverse] at hLast
  rw [hLast] at hDrop
  exact absurd hDrop (by decide)

theorem dropTrailingZeros_append_zeros {cs : List Char} (h : cs.getLast? ≠ some '0') (n : Nat) :
    dropTrailingZeros (cs ++ List.replicate n '0') = cs := by
  have hZeros : ∀ c ∈ List.replicate n '0', (c == '0') = true := by
    intro c hc
    rw [List.eq_of_mem_replicate hc]
    rfl
  have hStop : cs.reverse.dropWhile (· == '0') = cs.reverse := by
    rw [← List.head?_reverse] at h
    cases hReverse : cs.reverse with
    | nil => rfl
    | cons c rest =>
        rw [hReverse] at h
        exact List.dropWhile_cons_of_neg (by simpa using h)
  rw [dropTrailingZeros, List.reverse_append, List.reverse_replicate, List.dropWhile_append_of_pos hZeros,
    hStop, List.reverse_reverse]

/-! ## Decimals -/

/-- The text behind the digits of a decimal. -/
def fractionWritten (places rest : Nat) : List Char :=
  if rest = 0 then [] else '.' :: dropTrailingZeros (digitsPadded places rest)

/-- **A decimal is its whole part and the rest** without zeros at its end. -/
theorem decimal_eq {places rest : Nat} (whole : Nat) (h : rest < 10 ^ places) :
    decimal places (whole * 10 ^ places + rest) = digits whole ++ fractionWritten places rest := by
  have hPositive : 0 < 10 ^ places := Nat.pow_pos (by decide)
  have hWhole : (whole * 10 ^ places + rest) / 10 ^ places = whole := by
    rw [Nat.add_comm, Nat.add_mul_div_right _ _ hPositive, Nat.div_eq_of_lt h, Nat.zero_add]
  have hRest : (whole * 10 ^ places + rest) % 10 ^ places = rest := by
    rw [Nat.add_comm, Nat.add_mul_mod_self_right, Nat.mod_eq_of_lt h]
  unfold decimal fractionWritten
  simp only [Nat.pow_eq, hWhole, hRest]
  split
  · rw [List.append_nil]
  · rfl

/-- What is left of digits without the zeros at their end is filled up with zeros to the digits. -/
private theorem digitsPadded_of_fraction {places : Nat} {fs : List Char} (hDigits : AreDigits fs)
    (hLength : fs.length ≤ places) (hPlaces : 0 < places) :
    ofDigits fs * 10 ^ (places - fs.length) < 10 ^ places ∧
    digitsPadded places (ofDigits fs * 10 ^ (places - fs.length)) =
      fs ++ List.replicate (places - fs.length) '0' := by
  have hFilled : AreDigits (fs ++ List.replicate (places - fs.length) '0') :=
    areDigits_append.2 ⟨hDigits, areDigits_zeros _⟩
  have hNumber : ofDigits (fs ++ List.replicate (places - fs.length) '0') =
      ofDigits fs * 10 ^ (places - fs.length) := ofDigits_append_zeros _ _
  have hWidth : (fs ++ List.replicate (places - fs.length) '0').length = places := by
    rw [List.length_append, List.length_replicate]
    omega
  have hLt : ofDigits fs * 10 ^ (places - fs.length) < 10 ^ places := by
    have hBelow := Text.ofDigits_lt hFilled
    rwa [hNumber, hWidth] at hBelow
  refine ⟨hLt, eq_of_ofDigits_eq (areDigits_digitsPadded _ _) hFilled ?_ ?_⟩
  · rw [length_digitsPadded hPlaces hLt, hWidth]
  · rw [ofDigits_digitsPadded, hNumber]

/-- **Which texts stand behind the digits of a decimal.** -/
theorem isFraction_iff {places : Nat} {f : List Char} :
    IsFraction places f ↔ ∃ rest < 10 ^ places, f = fractionWritten places rest := by
  constructor
  · intro h
    cases h with
    | none => exact ⟨0, Nat.pow_pos (by decide), rfl⟩
    | @some fs hSome hDigits hLast hLength =>
        have hPlaces : 0 < places := Nat.lt_of_lt_of_le (List.length_pos_iff.2 hSome) hLength
        obtain ⟨hLt, hPadded⟩ := digitsPadded_of_fraction hDigits hLength hPlaces
        have hPower : 0 < 10 ^ (places - fs.length) := Nat.pow_pos (by decide)
        have hNonzero : ofDigits fs * 10 ^ (places - fs.length) ≠ 0 :=
          Nat.mul_ne_zero (Text.ofDigits_ne_zero hDigits hSome hLast) (Nat.ne_of_gt hPower)
        refine ⟨_, hLt, ?_⟩
        rw [fractionWritten, if_neg hNonzero, hPadded, dropTrailingZeros_append_zeros hLast]
  · rintro ⟨rest, hLt, rfl⟩
    unfold fractionWritten
    split
    · exact .none
    · next hNonzero =>
        obtain ⟨fs, k, hDigits, hLength, hNumber⟩ := fraction_spec hNonzero hLt
        refine .some ?_ (areDigits_fraction _ _) (getLast?_dropTrailingZeros _) ?_
        · rw [hDigits]
          rintro rfl
          exact hNonzero (by rw [← hNumber]; exact Nat.zero_mul _)
        · rw [hDigits]
          omega

/-- A decimal is a numeral and a fraction. -/
theorem decimal_spec (places value : Nat) :
    ∃ f, decimal places value = digits (value / 10 ^ places) ++ f ∧ IsFraction places f := by
  have hRest : value % 10 ^ places < 10 ^ places := Nat.mod_lt _ (Nat.pow_pos (by decide))
  refine ⟨fractionWritten places (value % 10 ^ places), ?_, isFraction_iff.2 ⟨_, hRest, rfl⟩⟩
  rw [← decimal_eq _ hRest, Nat.mul_comm, Nat.div_add_mod]

/-- A numeral and a fraction are a decimal. -/
theorem exists_decimal {places : Nat} {n f : List Char} (h : IsNumeral n) (hFraction : IsFraction places f) :
    ∃ rest < 10 ^ places, n ++ f = decimal places (ofDigits n * 10 ^ places + rest) := by
  obtain ⟨rest, hLt, rfl⟩ := isFraction_iff.1 hFraction
  refine ⟨rest, hLt, ?_⟩
  rw [decimal_eq _ hLt, Text.digits_ofDigits h]

/-! ## Below a second -/

section BelowSecond

variable {unit : List Char} {places nanos : Nat}

theorem belowSecond_eq (hUnit : (unit, places) ∈ fineUnits) (hLeast : 10 ^ places ≤ nanos)
    (hMost : nanos < 1000 * 10 ^ places) : belowSecond nanos = decimal places nanos ++ unit := by
  simp only [fineUnits, List.mem_cons, Prod.mk.injEq, List.not_mem_nil, or_false] at hUnit
  unfold belowSecond
  rcases hUnit with ⟨rfl, rfl⟩ | ⟨rfl, rfl⟩ | ⟨rfl, rfl⟩
  · rw [if_pos (by omega)]
    rfl
  · rw [if_neg (by omega), if_pos (by omega)]
    rfl
  · rw [if_neg (by omega), if_neg (by omega)]
    rfl

/-- Below a second there is one unit of which a span is less than a thousand, and at least one. -/
theorem exists_fineUnit (hSome : 0 < nanos) (hBelow : nanos < nanosPerSecond) :
    ∃ unit places, (unit, places) ∈ fineUnits ∧ 10 ^ places ≤ nanos ∧ nanos < 1000 * 10 ^ places := by
  unfold nanosPerSecond at hBelow
  rcases Nat.lt_or_ge nanos 1000 with hNano | hMore
  · exact ⟨_, _, .head _, by omega, by omega⟩
  rcases Nat.lt_or_ge nanos 1000000 with hMicro | hMilli
  · exact ⟨_, _, .tail _ (.head _), by omega, by omega⟩
  · exact ⟨_, _, .tail _ (.tail _ (.head _)), by omega, by omega⟩

end BelowSecond

/-! ## A second or more -/

/-- Nanoseconds in hours, minutes, seconds and a rest. -/
private theorem exists_parts (nanos : Nat) : ∃ hours minutes seconds rest, minutes < 60 ∧ seconds < 60 ∧
    rest < 10 ^ 9 ∧ nanos = (hours * 3600 + minutes * 60 + seconds) * 10 ^ 9 + rest := by
  refine ⟨nanos / 10 ^ 9 / 3600, nanos / 10 ^ 9 % 3600 / 60, nanos / 10 ^ 9 % 60, nanos % 10 ^ 9, ?_⟩
  omega

/-- The text of hours, minutes, seconds and a rest. -/
theorem fromSecond_eq {d : Span} {hours minutes seconds rest : Nat} (hMinutes : minutes < 60)
    (hSeconds : seconds < 60) (hRest : rest < 10 ^ 9)
    (h : d.nanos = (hours * 3600 + minutes * 60 + seconds) * 10 ^ 9 + rest) :
    d.fromSecond = (if hours = 0 then [] else digits hours ++ ['h']) ++
      (if hours = 0 ∧ minutes = 0 then [] else digits minutes ++ ['m']) ++
      (digits seconds ++ fractionWritten 9 rest) ++ ['s'] := by
  have hHour : d.seconds / 3600 = hours := by
    unfold Span.seconds nanosPerSecond
    omega
  have hMinute : d.seconds % 3600 / 60 = minutes := by
    unfold Span.seconds nanosPerSecond
    omega
  have hSecond : d.seconds % 60 * nanosPerSecond + d.subseconds = seconds * 10 ^ 9 + rest := by
    unfold Span.seconds subseconds nanosPerSecond
    omega
  unfold fromSecond
  simp only [hHour, hMinute, hSecond, decimal_eq seconds hRest]
  rfl

private theorem isCanonical_fromSecond {d : Span} (h : nanosPerSecond ≤ d.nanos) :
    IsCanonical d.fromSecond := by
  obtain ⟨hours, minutes, seconds, rest, hMinutes, hSeconds, hRest, hNanos⟩ := exists_parts d.nanos
  have hFraction : IsFraction 9 (fractionWritten 9 rest) := isFraction_iff.2 ⟨rest, hRest, rfl⟩
  have hBound := d.nanos_lt
  unfold secondsBound at hBound
  unfold nanosPerSecond at h hBound
  rw [fromSecond_eq hMinutes hSeconds hRest hNanos]
  by_cases hHours : hours = 0
  · rw [if_pos hHours, List.nil_append]
    by_cases hMinute : minutes = 0
    · rw [if_pos ⟨hHours, hMinute⟩, List.nil_append]
      refine .seconds (Text.isNumeral_digits _) ?_ ?_ hFraction
      all_goals rw [Text.ofDigits_digits]; omega
    · rw [if_neg (fun hBoth => hMinute hBoth.2), ← List.append_assoc]
      refine .minutes (Text.isNumeral_digits _) ?_ ?_ (Text.isNumeral_digits _) ?_ hFraction
      all_goals rw [Text.ofDigits_digits]; omega
  · rw [if_neg hHours, if_neg (fun hBoth => hHours hBoth.1), ← List.append_assoc, ← List.append_assoc]
    refine .hours (Text.isNumeral_digits _) ?_ (Text.isNumeral_digits _) ?_ (Text.isNumeral_digits _) ?_
      hFraction ?_
    all_goals simp only [Text.ofDigits_digits]; omega

/-! ## Both ways -/

private theorem isCanonical_belowSecond {nanos : Nat} (hSome : 0 < nanos)
    (hBelow : nanos < nanosPerSecond) : IsCanonical (belowSecond nanos) := by
  obtain ⟨unit, places, hUnit, hLeast, hMost⟩ := exists_fineUnit hSome hBelow
  obtain ⟨f, hDecimal, hFraction⟩ := decimal_spec places nanos
  have hPositive : 0 < 10 ^ places := Nat.pow_pos (by decide)
  rw [belowSecond_eq hUnit hLeast hMost, hDecimal]
  refine .belowSecond hUnit (Text.isNumeral_digits _) ?_ ?_ hFraction
  · rw [Text.ofDigits_digits]
    exact Nat.div_pos hLeast hPositive
  · rw [Text.ofDigits_digits, ← Nat.lt_succ_iff]
    exact Nat.div_lt_of_lt_mul (by rwa [Nat.mul_comm])

/-- **What is written of a span has the form.** -/
theorem isCanonical_written (d : Span) : IsCanonical d.written := by
  unfold written
  by_cases hZero : d.nanos = 0
  · rw [if_pos hZero]
    exact .zero
  rw [if_neg hZero]
  by_cases hBelow : d.nanos < nanosPerSecond
  · rw [if_pos hBelow]
    exact isCanonical_belowSecond (Nat.pos_of_ne_zero hZero) hBelow
  · rw [if_neg hBelow]
    exact isCanonical_fromSecond (Nat.le_of_not_lt hBelow)

/-- Seconds below the bound and a rest are a span. -/
private theorem exists_span {total rest : Nat} (hTotal : total < 2 ^ 64) (hRest : rest < 10 ^ 9) :
    ∃ d : Span, d.nanos = total * 10 ^ 9 + rest := by
  have hSpan : total * 10 ^ 9 + rest < secondsBound * nanosPerSecond := by
    calc total * 10 ^ 9 + rest < (total + 1) * 10 ^ 9 := by omega
      _ ≤ 2 ^ 64 * 10 ^ 9 := Nat.mul_le_mul_right _ hTotal
  exact ⟨⟨_, hSpan⟩, rfl⟩

/-- A text of hours, minutes, seconds and a fraction is written of the span that they make up. -/
private theorem exists_fromSecond (hours : Nat) {minutes : Nat} {s f : List Char} (hMinutes : minutes < 60)
    (hNumeral : IsNumeral s) (hSeconds : ofDigits s ≤ 59) (hFraction : IsFraction 9 f)
    (hSome : 1 ≤ hours * 3600 + minutes * 60 + ofDigits s)
    (hBound : hours * 3600 + minutes * 60 + ofDigits s < 2 ^ 64) :
    ∃ d : Span, d.written = (if hours = 0 then [] else digits hours ++ ['h']) ++
      (if hours = 0 ∧ minutes = 0 then [] else digits minutes ++ ['m']) ++ (s ++ f) ++ ['s'] := by
  obtain ⟨rest, hRest, rfl⟩ := isFraction_iff.1 hFraction
  obtain ⟨d, hNanos⟩ := exists_span hBound hRest
  have hLong : nanosPerSecond ≤ d.nanos := by
    unfold nanosPerSecond
    omega
  refine ⟨d, ?_⟩
  rw [written, if_neg (by omega), if_neg (Nat.not_lt.2 hLong),
    fromSecond_eq hMinutes (Nat.lt_succ_of_le hSeconds) hRest hNanos, Text.digits_ofDigits hNumeral]

/-- A number and a fraction below a second are written of the span that they make up. -/
private theorem exists_belowSecond {n f unit : List Char} {places : Nat}
    (hUnit : (unit, places) ∈ fineUnits) (hNumeral : IsNumeral n) (hLeast : 1 ≤ ofDigits n)
    (hMost : ofDigits n ≤ 999) (hFraction : IsFraction places f) :
    ∃ d : Span, d.written = n ++ f ++ unit := by
  obtain ⟨rest, hRest, hDecimal⟩ := exists_decimal hNumeral hFraction
  have hPlaces : 1000 * 10 ^ places ≤ nanosPerSecond := by
    simp only [fineUnits, List.mem_cons, Prod.mk.injEq, List.not_mem_nil, or_false] at hUnit
    rcases hUnit with ⟨-, rfl⟩ | ⟨-, rfl⟩ | ⟨-, rfl⟩ <;> decide
  have hLow : 1 * 10 ^ places ≤ ofDigits n * 10 ^ places := Nat.mul_le_mul_right _ hLeast
  have hHigh : ofDigits n * 10 ^ places ≤ 999 * 10 ^ places := Nat.mul_le_mul_right _ hMost
  have hShort : ofDigits n * 10 ^ places + rest < nanosPerSecond := by omega
  have hSpan : ofDigits n * 10 ^ places + rest < secondsBound * nanosPerSecond :=
    Nat.lt_of_lt_of_le hShort (Nat.le_mul_of_pos_left _ (by decide))
  obtain ⟨d, hNanos⟩ : ∃ d : Span, d.nanos = ofDigits n * 10 ^ places + rest := ⟨⟨_, hSpan⟩, rfl⟩
  refine ⟨d, ?_⟩
  rw [written, if_neg (by omega), if_pos (by omega), hNanos,
    belowSecond_eq hUnit (by omega) (by omega), ← hDecimal]

/-- **All that has the form is written of a span.** -/
theorem exists_written {cs : List Char} (h : IsCanonical cs) : ∃ d : Span, d.written = cs := by
  cases h with
  | zero => exact ⟨.zero, rfl⟩
  | belowSecond hUnit hNumeral hLeast hMost hFraction =>
      exact exists_belowSecond hUnit hNumeral hLeast hMost hFraction
  | seconds hNumeral hLeast hMost hFraction =>
      obtain ⟨d, hd⟩ := exists_fromSecond 0 (Nat.zero_lt_succ _) hNumeral hMost hFraction (by omega)
        (by omega)
      exact ⟨d, hd⟩
  | minutes hMinutes hLeast hMost hNumeral hSeconds hFraction =>
      obtain ⟨d, hd⟩ := exists_fromSecond 0 (Nat.lt_succ_of_le hMost) hNumeral hSeconds hFraction
        (by omega) (by omega)
      refine ⟨d, ?_⟩
      rw [hd, if_pos rfl, if_neg (by omega), Text.digits_ofDigits hMinutes, List.nil_append,
        ← List.append_assoc]
  | hours hHours hLeast hMinutes hMost hNumeral hSeconds hFraction hBound =>
      obtain ⟨d, hd⟩ := exists_fromSecond _ (Nat.lt_succ_of_le hMost) hNumeral hSeconds hFraction
        (by omega) hBound
      refine ⟨d, ?_⟩
      rw [hd, if_neg (by omega), if_neg (by omega), Text.digits_ofDigits hHours,
        Text.digits_ofDigits hMinutes, ← List.append_assoc, ← List.append_assoc]

/-- **Canonical texts are what is written.** The text of every span is canonical, and reading a canonical text
and writing what was read gives the text. -/
theorem canonical_text :
    (∀ d : Span, IsCanonical d.text.toList) ∧
    ∀ c : String, IsCanonical c.toList → ∃ d, Span.read c = .ok d ∧ d.text = c := by
  constructor
  · intro d
    rw [text, String.toList_ofList]
    exact isCanonical_written d
  · intro c h
    obtain ⟨d, hd⟩ := exists_written h
    have hText : d.text = c := by
      rw [text, hd, String.ofList_toList]
    refine ⟨d, ?_, hText⟩
    rw [← hText]
    exact read_text d

/-- An hour and half a second, with no minutes and no whole seconds. -/
theorem canonical_text_hour :
    IsCanonical "1h0m0.5s".toList ∧ ∃ d, Span.read "1h0m0.5s" = .ok d ∧ d.text = "1h0m0.5s" := by
  have hCanonical : IsCanonical "1h0m0.5s".toList := by
    have hOne : IsNumeral ['1'] := Text.isNumeral_digits 1
    have hZero : IsNumeral ['0'] := Text.isNumeral_digits 0
    exact .hours hOne (by decide) hZero (by decide) hZero (by decide)
      (.some (by decide) (Text.areDigits_digits 5) (by decide) (by decide)) (by decide)
  exact ⟨hCanonical, canonical_text.2 _ hCanonical⟩

end ControlClient.Span
