import ControlClient.Proofs.Span.Grammar
import Mathlib.Tactic.Ring

/-!
# How exact a fraction is

Eighteen digits of a fraction count, and those behind them are dropped before the fraction is multiplied by
its unit. For the units up to the second this changes nothing: they divide `10 ^ 18`, so the digits that are
dropped are parts of a nanosecond that stay within it. Sixty seconds do not divide a power of ten. What the
eighteen digits leave over can be so close to a nanosecond that the digits behind them complete it, and a
fraction of a minute or of an hour is then read as one nanosecond less than it is.

## Main results

* `exactIn_eq`: what the number of a segment is in nanoseconds, to its last digit.
* `Segment.FallsShort.spec`: where digits that are dropped can matter.
* `read_nanos`: what each segment of a text that is read contributes.
* `read_third_of_hour`: a fraction that is read as a nanosecond less than it is.
-/

namespace ControlClient.Span

open Text (AreDigits ofDigits ofDigits_append ofDigits_lt)

/-! ## Numbers to their last digit -/

/-- The number of a segment in whole nanoseconds, all its digits considered. -/
def Segment.exactIn (s : Segment) (u : TimeUnit) : Nat :=
  ofDigits (s.whole ++ s.fraction?.getD []) * u.nanos / 10 ^ (s.fraction?.getD []).length

/-- What the digits that count leave over, and what the dropped ones add to it, in parts of which
`10 ^ digits.length` are a nanosecond. -/
def leftOver (u : TimeUnit) (digits : List Char) : Nat :=
  ofDigits (digits.take 18) * u.nanos % 10 ^ min 18 digits.length * 10 ^ (digits.length - 18) +
    ofDigits (digits.drop 18) * u.nanos

/-- Whether the digits that are dropped complete a nanosecond with what is left over. -/
def Segment.FallsShort (s : Segment) (u : TimeUnit) : Prop :=
  10 ^ (s.fraction?.getD []).length ≤ leftOver u (s.fraction?.getD [])

instance (s : Segment) (u : TimeUnit) : Decidable (s.FallsShort u) :=
  inferInstanceAs (Decidable (_ ≤ _))

/-- A quotient by a power of ten, taken in two steps: what the first leaves over is carried. -/
private theorem div_carry (front back unit k t : Nat) :
    (front * 10 ^ t + back) * unit / 10 ^ (k + t) =
      front * unit / 10 ^ k + (front * unit % 10 ^ k * 10 ^ t + back * unit) / 10 ^ (k + t) := by
  have hPositive : 0 < 10 ^ (k + t) := Nat.pow_pos (by decide)
  have hSplit := Nat.div_add_mod (front * unit) (10 ^ k)
  have hSum : (front * 10 ^ t + back) * unit =
      front * unit % 10 ^ k * 10 ^ t + back * unit + 10 ^ (k + t) * (front * unit / 10 ^ k) := by
    calc (front * 10 ^ t + back) * unit
        = front * unit * 10 ^ t + back * unit := by ring
      _ = (10 ^ k * (front * unit / 10 ^ k) + front * unit % 10 ^ k) * 10 ^ t + back * unit := by
          rw [hSplit]
      _ = _ := by ring
  rw [hSum, Nat.add_mul_div_left _ _ hPositive, Nat.add_comm]

private theorem div_of_lt_two_mul {x m : Nat} (h : x < 2 * m) : x / m = if m ≤ x then 1 else 0 := by
  split
  · next hReached => exact Nat.div_eq_of_lt_le (by omega) (by omega)
  · next hBelow => exact Nat.div_eq_of_lt (by omega)

/-! ## What is left over -/

section Digits

variable {digits : List Char} {u : TimeUnit}

private theorem ofDigits_split (digits : List Char) :
    ofDigits digits =
      ofDigits (digits.take 18) * 10 ^ (digits.length - 18) + ofDigits (digits.drop 18) := by
  have hAppend := ofDigits_append (digits.take 18) (digits.drop 18)
  rwa [List.take_append_drop, List.length_drop] at hAppend

private theorem pow_split (digits : List Char) :
    10 ^ digits.length = 10 ^ min 18 digits.length * 10 ^ (digits.length - 18) := by
  rw [← Nat.pow_add]
  congr 1
  omega

private theorem ofDigits_drop_lt (h : AreDigits digits) :
    ofDigits (digits.drop 18) < 10 ^ (digits.length - 18) := by
  have hLt : ofDigits (digits.drop 18) < 10 ^ (digits.drop 18).length :=
    ofDigits_lt fun c hc => h c (List.mem_of_mem_drop hc)
  rwa [List.length_drop] at hLt

/-- What the digits that count leave over is less than a nanosecond. -/
private theorem rest_lt (u : TimeUnit) (digits : List Char) :
    ofDigits (digits.take 18) * u.nanos % 10 ^ min 18 digits.length * 10 ^ (digits.length - 18) <
      10 ^ digits.length := by
  rw [pow_split]
  exact Nat.mul_lt_mul_of_pos_right (Nat.mod_lt _ (Nat.pow_pos (by decide))) (Nat.pow_pos (by decide))

/-- Up to eighteen digits, none is dropped. -/
theorem leftOver_lt_of_length_le (h : digits.length ≤ 18) : leftOver u digits < 10 ^ digits.length := by
  have hNone : ofDigits (digits.drop 18) = 0 := by
    rw [List.drop_eq_nil_of_le h]
    rfl
  rw [leftOver, hNone, Nat.zero_mul, Nat.add_zero]
  exact rest_lt u digits

/-- The digits that are dropped are less than a nanosecond. -/
private theorem dropped_lt (h : AreDigits digits) :
    ofDigits (digits.drop 18) * u.nanos < u.nanos * 10 ^ (digits.length - 18) := by
  rw [Nat.mul_comm]
  exact Nat.mul_lt_mul_of_pos_left (ofDigits_drop_lt h) (nanos_pos u)

theorem leftOver_lt (h : AreDigits digits) : leftOver u digits < 2 * 10 ^ digits.length := by
  rcases Nat.lt_or_ge 18 digits.length with hLong | hShort
  · have hRest := rest_lt u digits
    have hDropped : ofDigits (digits.drop 18) * u.nanos < 10 ^ digits.length := by
      calc ofDigits (digits.drop 18) * u.nanos
          < u.nanos * 10 ^ (digits.length - 18) := dropped_lt h
        _ ≤ 10 ^ 18 * 10 ^ (digits.length - 18) :=
            Nat.mul_le_mul_right _ (Nat.le_trans (nanos_le_hour u) (by decide))
        _ = 10 ^ digits.length := by rw [pow_split, Nat.min_eq_left (by omega)]
    unfold leftOver
    omega
  · have hLess : leftOver u digits < 10 ^ digits.length := leftOver_lt_of_length_le hShort
    omega

/-- What is left over is a multiple of the unit, if that divides the power of ten, so one more unit stays
within the nanosecond. -/
theorem leftOver_lt_of_dvd (h : AreDigits digits) (hUnit : u.nanos ∣ 10 ^ 18) :
    leftOver u digits < 10 ^ digits.length := by
  rcases Nat.lt_or_ge 18 digits.length with hLong | hShort
  · obtain ⟨m, hm⟩ := hUnit
    have hPositive : 0 < m := by
      apply Nat.pos_of_ne_zero
      rintro rfl
      cases hm
    have hLess : ofDigits (digits.take 18) % m + 1 ≤ m := Nat.mod_lt _ hPositive
    have hRest : ofDigits (digits.take 18) * u.nanos % 10 ^ 18 =
        u.nanos * (ofDigits (digits.take 18) % m) := by
      rw [hm, Nat.mul_comm _ u.nanos, Nat.mul_mod_mul_left]
    rw [leftOver, Nat.min_eq_left (by omega), hRest]
    calc u.nanos * (ofDigits (digits.take 18) % m) * 10 ^ (digits.length - 18) +
          ofDigits (digits.drop 18) * u.nanos
        < u.nanos * (ofDigits (digits.take 18) % m) * 10 ^ (digits.length - 18) +
            u.nanos * 10 ^ (digits.length - 18) := Nat.add_lt_add_left (dropped_lt h) _
      _ = u.nanos * (ofDigits (digits.take 18) % m + 1) * 10 ^ (digits.length - 18) := by ring
      _ ≤ u.nanos * m * 10 ^ (digits.length - 18) :=
          Nat.mul_le_mul_right _ (Nat.mul_le_mul_left _ hLess)
      _ = 10 ^ digits.length := by rw [← hm, pow_split, Nat.min_eq_left (by omega)]
  · exact leftOver_lt_of_length_le hShort

/-- A fraction to its last digit is what it counts for, and what is left over if that is a nanosecond. -/
theorem fraction_eq (h : AreDigits digits) :
    ofDigits digits * u.nanos / 10 ^ digits.length =
      fractionNanos u digits + if 10 ^ digits.length ≤ leftOver u digits then 1 else 0 := by
  rw [← div_of_lt_two_mul (leftOver_lt h), fractionNanos, List.length_take, ofDigits_split digits,
    pow_split digits, ← Nat.pow_add]
  exact div_carry _ _ _ _ _

end Digits

/-! ## What is lost -/

section Loss

variable {s : Segment} {u : TimeUnit}

/-- **The number of a segment, to its last digit**, is what it is worth, or a nanosecond more where it falls
short. -/
theorem exactIn_eq (h : AreDigits (s.fraction?.getD [])) :
    s.exactIn u = s.worthIn u + if s.FallsShort u then 1 else 0 := by
  have hPositive : 0 < 10 ^ (s.fraction?.getD []).length := Nat.pow_pos (by decide)
  calc ofDigits (s.whole ++ s.fraction?.getD []) * u.nanos / 10 ^ (s.fraction?.getD []).length
      = (ofDigits (s.fraction?.getD []) * u.nanos +
          ofDigits s.whole * u.nanos * 10 ^ (s.fraction?.getD []).length) /
          10 ^ (s.fraction?.getD []).length := by
        rw [ofDigits_append]
        ring_nf
    _ = ofDigits (s.fraction?.getD []) * u.nanos / 10 ^ (s.fraction?.getD []).length +
          ofDigits s.whole * u.nanos := Nat.add_mul_div_right _ _ hPositive
    _ = s.worthIn u + if s.FallsShort u then 1 else 0 := by
        rw [fraction_eq h, Nat.add_comm, ← Nat.add_assoc]
        rfl

/-- **Where digits that are dropped can matter**: behind the eighteenth, in minutes and hours. -/
theorem Segment.FallsShort.spec (h : s.FallsShort u) (hDigits : AreDigits (s.fraction?.getD [])) :
    (u = .minute ∨ u = .hour) ∧ 18 < (s.fraction?.getD []).length := by
  constructor
  · cases u with
    | minute => exact .inl rfl
    | hour => exact .inr rfl
    | _ => exact absurd h (Nat.not_le.2 (leftOver_lt_of_dvd hDigits (by decide)))
  · rw [← Nat.not_le]
    intro hShort
    exact absurd h (Nat.not_le.2 (leftOver_lt_of_length_le hShort))

end Loss

/-! ## Texts -/

/-- What a segment adds to a span: its number to the last digit, or a nanosecond less where it falls short,
which it may in minutes and hours with more than eighteen digits behind the point. -/
inductive Segment.Adds (s : Segment) (n : Nat) : Prop
  | intro (u : TimeUnit) : s.unit ∈ u.names → s.nanos = .ok n →
      s.exactIn u = n + (if s.FallsShort u then 1 else 0) →
      (s.FallsShort u → (u = .minute ∨ u = .hour) ∧ 18 < (s.fraction?.getD []).length) → s.Adds n

private theorem adds_of_nanos {s : Segment} {n : Nat} (hDigits : AreDigits (s.fraction?.getD []))
    (h : s.nanos = .ok n) : s.Adds n := by
  obtain ⟨hWorth, -⟩ := nanos_eq_ok_iff.1 h
  obtain ⟨-, u, hUnit, rfl⟩ := Segment.worth?_eq_some_iff.1 hWorth
  exact .intro u (TimeUnit.ofName?_eq_some_iff.1 hUnit) h (exactIn_eq hDigits) fun hShort =>
    hShort.spec hDigits

/-- **What each segment of a text that is read adds to the span.** -/
theorem read_nanos {input : String} {d : Span} (h : Span.read input = .ok d)
    (hZero : Text.trim input.toList ≠ ['0']) :
    ∃ ns, List.Forall₂ Segment.Adds (segments (Text.trim input.toList)) ns ∧ ns.sum = d.nanos := by
  rcases readTrimmed_eq_ok_iff.1 h with ⟨hBare, -⟩ | ⟨-, ns, hWorths, hSum⟩
  · exact absurd hBare hZero
  have hBound : ns.sum < accumulatorBound := hSum ▸ Nat.lt_trans d.nanos_lt (by decide)
  have hEach := nanos_of_worths (Text.mapM_eq_some_iff.1 hWorths) hBound
  have hMembers := (List.forall₂_and_left _ _).2 ⟨fun _ hs => hs, hEach⟩
  exact ⟨ns, hMembers.imp fun s n hs => adds_of_nanos (isDigit_of_mem_segments hs.1) hs.2, hSum⟩

/-- A third of an hour with nineteen digits and a third of a second with twenty. -/
theorem read_nanos_thirds :
    ∃ d, Span.read "0.3333333333333333334h.33333333333333333334s" = .ok d ∧
      Text.trim "0.3333333333333333334h.33333333333333333334s".toList ≠ ['0'] ∧
      ∃ ns, List.Forall₂ Segment.Adds
        (segments (Text.trim "0.3333333333333333334h.33333333333333333334s".toList)) ns ∧
        ns.sum = d.nanos := by
  have hRead : Span.read "0.3333333333333333334h.33333333333333333334s" =
      .ok ⟨1199999999999 + 333333333, by decide⟩ := by decide +kernel
  have hZero : Text.trim "0.3333333333333333334h.33333333333333333334s".toList ≠ ['0'] := by
    decide +kernel
  exact ⟨_, hRead, hZero, read_nanos hRead hZero⟩

/-- **A fraction that is read as a nanosecond less than it is**: a third of an hour, rounded up at its
nineteenth digit, is twenty minutes to the last whole nanosecond. -/
theorem read_third_of_hour :
    ∃ s d, segments (Text.trim "0.3333333333333333334h".toList) = [s] ∧
      s.unit ∈ TimeUnit.hour.names ∧ s.exactIn .hour = 1200 * nanosPerSecond ∧
      Span.read "0.3333333333333333334h" = .ok d ∧ d.nanos + 1 = 1200 * nanosPerSecond := by
  refine ⟨⟨['0'], some "3333333333333333334".toList, ['h']⟩, ⟨1199999999999, by decide⟩, ?_, ?_, ?_, ?_, ?_⟩
  all_goals decide +kernel

end ControlClient.Span
