import ControlClient.Proofs.Except
import ControlClient.Proofs.Span.Segments
import ControlClient.Proofs.Text.Digits
import ControlClient.Proofs.Text.Split
import Mathlib.Algebra.GroupWithZero.Nat

/-!
# How long a text may be

A text may be worth more than a span can be, and is then refused. Numbers are kept below `2 ^ 128` while
it is read, and what could lead beyond is checked: the whole digits, their product with the unit, and the
sum. One step is not. The fraction joins the product as it is, and for each unit but the smallest there is
one number of units from which that can lead beyond the bound, the greatest that is below it. At such a
segment reading breaks off, if what stands in front of it has been read. Every other text of the grammar
is read as the sum of what its segments are worth, or refused.

## Main results

* `worthIn_lt_iff`: which segments are beyond the bound although their units are not.
* `nanos_eq_ok_iff`, `nanos_eq_overflow_iff`: what a segment counts for, and which segments overflow.
* `sumFrom_eq_ok_iff`, `sumFrom_eq_overflow_iff`: the same for segments in turn.
* `read_of_worths`: what a text is read as, by what its segments are worth.
* `read_of_overflow`: a text that is worth more than a span can be, and is not refused.
-/

namespace ControlClient.Span

open Text (AreDigits ofDigits)

/-! ## What segments are worth -/

/-- What a segment is worth in a unit, however much that is. -/
def Segment.worthIn (s : Segment) (u : TimeUnit) : Nat :=
  ofDigits s.whole * u.nanos + fractionNanos u (s.fraction?.getD [])

/-- What a segment is worth, if it has digits and a unit. -/
def Segment.worth? (s : Segment) : Option Nat :=
  if s.whole.isEmpty && (s.fraction?.getD []).isEmpty then none
  else (TimeUnit.ofName? s.unit).map s.worthIn

theorem Segment.worth?_eq_some_iff {s : Segment} {n : Nat} :
    s.worth? = some n ↔ (s.whole.isEmpty && (s.fraction?.getD []).isEmpty) = false ∧
      ∃ u, TimeUnit.ofName? s.unit = some u ∧ s.worthIn u = n := by
  unfold Segment.worth?
  split
  · next hNone => simp [hNone]
  · next hSome => simp [hSome]

/-- What the segments of a text are worth, if each of them is worth something. -/
def worths? (cs : List Char) : Option (List Nat) := (segments cs).mapM Segment.worth?

/-- Whether a segment has as many units as there are below the bound, and a fraction that leads
beyond. -/
def Segment.Overflows (s : Segment) : Prop :=
  ∃ u ∈ TimeUnit.ofName? s.unit,
    ofDigits s.whole = (accumulatorBound - 1) / u.nanos ∧
    (accumulatorBound - 1) % u.nanos < fractionNanos u (s.fraction?.getD [])

instance (s : Segment) : Decidable s.Overflows :=
  inferInstanceAs (Decidable (∃ u ∈ TimeUnit.ofName? s.unit, _))

/-- Whether a text has a segment that overflows, and in front of it only segments that are worth less than
the bound together. -/
def Overflows (cs : List Char) : Prop :=
  ∃ front s back ns, segments cs = front ++ s :: back ∧ s.Overflows ∧
    List.Forall₂ (fun s n => s.worth? = some n) front ns ∧ ns.sum < accumulatorBound

/-! ## Fractions -/

theorem nanos_pos (u : TimeUnit) : 0 < u.nanos := by
  cases u <;> decide

theorem nanos_le_hour (u : TimeUnit) : u.nanos ≤ TimeUnit.hour.nanos := by
  cases u <;> decide

section Fractions

variable {digits : List Char} (u : TimeUnit)

private theorem ofDigits_take_lt (h : ∀ c ∈ digits, c.isDigit = true) :
    ofDigits (digits.take fractionDigits) < Nat.pow 10 (digits.take fractionDigits).length :=
  Text.ofDigits_lt fun c hc => h c (List.mem_of_mem_take hc)

private theorem pow_take_le : Nat.pow 10 (digits.take fractionDigits).length ≤ Nat.pow 10 18 :=
  Nat.pow_le_pow_right (by decide) (List.length_take_le _ _)

/-- A fraction is less than one unit. -/
theorem fractionNanos_lt (h : ∀ c ∈ digits, c.isDigit = true) :
    fractionNanos u digits < u.nanos := by
  unfold fractionNanos
  apply Nat.div_lt_of_lt_mul
  exact Nat.mul_lt_mul_of_pos_right (ofDigits_take_lt h) (nanos_pos u)

/-- Neither number that a fraction is divided from comes near the bound. -/
theorem fraction_bounds (h : ∀ c ∈ digits, c.isDigit = true) :
    ofDigits (digits.take fractionDigits) * u.nanos < accumulatorBound ∧
      Nat.pow 10 (digits.take fractionDigits).length < accumulatorBound := by
  have hDigits : ofDigits (digits.take fractionDigits) ≤ Nat.pow 10 18 :=
    Nat.le_trans (Nat.le_of_lt (ofDigits_take_lt h)) pow_take_le
  constructor
  · calc ofDigits (digits.take fractionDigits) * u.nanos
        ≤ Nat.pow 10 18 * TimeUnit.hour.nanos := Nat.mul_le_mul hDigits (nanos_le_hour u)
      _ < accumulatorBound := by decide
  · exact Nat.lt_of_le_of_lt pow_take_le (by decide)

end Fractions

/-- The number of a segment of a text consists of digits, in front of its point and behind it. -/
theorem areDigits_of_mem_segments {cs : List Char} {s : Segment} (h : s ∈ segments cs) :
    AreDigits s.whole ∧ AreDigits (s.fraction?.getD []) := by
  have hTaken : ∀ cs : List Char, AreDigits (cs.takeWhile Char.isDigit) :=
    fun _ => List.all_eq_true.1 List.all_takeWhile
  induction cs using segments.induct with
  | case1 => simp [segments] at h
  | case2 c cs ih =>
      rw [segments, List.mem_cons] at h
      rcases h with rfl | hLater
      · refine ⟨hTaken _, ?_⟩
        simp only [Segment.scan, splitFraction]
        split
        · exact hTaken _
        · exact List.forall_mem_nil _
      · exact ih hLater

theorem isDigit_of_mem_segments {cs : List Char} {s : Segment} (h : s ∈ segments cs) :
    ∀ c ∈ s.fraction?.getD [], c.isDigit = true := (areDigits_of_mem_segments h).2

/-! ## The step that is not checked -/

section Joining

variable {s : Segment} {u : TimeUnit}

/-- **Which segments are beyond the bound although their units are not.** -/
theorem worthIn_lt_iff (hDigits : ∀ c ∈ s.fraction?.getD [], c.isDigit = true)
    (hUnits : ofDigits s.whole * u.nanos < accumulatorBound) :
    s.worthIn u < accumulatorBound ↔
      ¬(ofDigits s.whole = (accumulatorBound - 1) / u.nanos ∧
        (accumulatorBound - 1) % u.nanos < fractionNanos u (s.fraction?.getD [])) := by
  have hFraction := fractionNanos_lt u hDigits
  have hSplit := Nat.div_add_mod (accumulatorBound - 1) u.nanos
  have hMost : ofDigits s.whole ≤ (accumulatorBound - 1) / u.nanos :=
    (Nat.le_div_iff_mul_le (nanos_pos u)).2 (by omega)
  unfold Segment.worthIn
  rcases Nat.lt_or_eq_of_le hMost with hLess | hEqual
  · -- Another unit is below the bound, and a fraction is less than a unit.
    have hNext : (ofDigits s.whole + 1) * u.nanos ≤ accumulatorBound - 1 :=
      (Nat.le_div_iff_mul_le (nanos_pos u)).1 hLess
    rw [Nat.add_mul, Nat.one_mul] at hNext
    have hBelow : ofDigits s.whole * u.nanos + fractionNanos u (s.fraction?.getD []) <
        accumulatorBound := by omega
    simp [hBelow, Nat.ne_of_lt hLess]
  · rw [← hEqual, Nat.mul_comm] at hSplit
    simp only [← hEqual, true_and]
    omega

theorem Segment.overflows_iff (hUnit : TimeUnit.ofName? s.unit = some u) :
    s.Overflows ↔ ofDigits s.whole = (accumulatorBound - 1) / u.nanos ∧
      (accumulatorBound - 1) % u.nanos < fractionNanos u (s.fraction?.getD []) := by
  unfold Segment.Overflows
  simp [hUnit]

/-- **A segment counts for what it is worth**, below the bound. -/
theorem nanos_eq_ok_iff {n : Nat} :
    s.nanos = .ok n ↔ s.worth? = some n ∧ n < accumulatorBound := by
  rw [Segment.worth?_eq_some_iff]
  constructor
  · intro h
    unfold Segment.nanos at h
    simp only at h
    split at h
    · cases h
    next hSome =>
    split at h
    · cases h
    next u hUnit =>
    simp only [bind_eq_ok_iff, bounded_eq_ok_iff] at h
    obtain ⟨_, ⟨-, rfl⟩, _, ⟨-, rfl⟩, hBelow, rfl⟩ := h
    exact ⟨⟨eq_false_of_ne_true hSome, u, hUnit, rfl⟩, hBelow⟩
  · rintro ⟨⟨hSome, u, hUnit, rfl⟩, hBelow⟩
    have hUnits : ofDigits s.whole * u.nanos < accumulatorBound :=
      Nat.lt_of_le_of_lt (Nat.le_add_right _ _) hBelow
    have hWhole : ofDigits s.whole < accumulatorBound :=
      Nat.lt_of_le_of_lt (Nat.le_mul_of_pos_right _ (nanos_pos u)) hUnits
    rw [nanos_of_unit hSome hUnit, bounded_bind_of_lt _ _ hWhole, bounded_bind_of_lt _ _ hUnits]
    exact if_pos hBelow

/-- A segment halts for a fault of its form, for its size, or at the sum that is not checked. -/
private theorem nanos_eq_error_iff {halt : Halt} (hUnit : TimeUnit.ofName? s.unit = some u)
    (hSome : (s.whole.isEmpty && (s.fraction?.getD []).isEmpty) = false) :
    s.nanos = .error halt ↔
      accumulatorBound ≤ ofDigits s.whole * u.nanos ∧ halt = .fault .malformed ∨
      ofDigits s.whole * u.nanos < accumulatorBound ∧ accumulatorBound ≤ s.worthIn u ∧
        halt = .overflow := by
  have hPositive := Nat.le_mul_of_pos_right (ofDigits s.whole) (nanos_pos u)
  rw [nanos_of_unit hSome hUnit]
  simp only [bind_eq_error_iff, bounded_eq_ok_iff, bounded_eq_error_iff]
  constructor
  · rintro (⟨hLarge, rfl⟩ | ⟨_, ⟨-, rfl⟩, ⟨hLarge, rfl⟩ | ⟨_, ⟨hBelow, rfl⟩, hSum, rfl⟩⟩)
    · exact .inl ⟨Nat.le_trans hLarge hPositive, rfl⟩
    · exact .inl ⟨hLarge, rfl⟩
    · exact .inr ⟨hBelow, hSum, rfl⟩
  · rintro (⟨hLarge, rfl⟩ | ⟨hBelow, hSum, rfl⟩)
    · by_cases hWhole : ofDigits s.whole < accumulatorBound
      · exact .inr ⟨_, ⟨hWhole, rfl⟩, .inl ⟨hLarge, rfl⟩⟩
      · exact .inl ⟨Nat.not_lt.1 hWhole, rfl⟩
    · exact .inr ⟨_, ⟨Nat.lt_of_le_of_lt hPositive hBelow, rfl⟩, .inr ⟨_, ⟨hBelow, rfl⟩, hSum, rfl⟩⟩

/-- **Which segments overflow.** -/
theorem nanos_eq_overflow_iff (hDigits : ∀ c ∈ s.fraction?.getD [], c.isDigit = true) :
    s.nanos = .error .overflow ↔ s.Overflows := by
  constructor
  · intro h
    cases hSome : s.whole.isEmpty && (s.fraction?.getD []).isEmpty with
    | true => simp [Segment.nanos, hSome] at h
    | false =>
        cases hUnit : TimeUnit.ofName? s.unit with
        | none => simp [Segment.nanos, hSome, hUnit] at h
        | some u =>
            obtain ⟨-, hHalt⟩ | ⟨hUnits, hSum, -⟩ := (nanos_eq_error_iff hUnit hSome).1 h
            · cases hHalt
            · rw [Segment.overflows_iff hUnit, ← not_not (a := _ ∧ _), ← worthIn_lt_iff hDigits hUnits]
              exact Nat.not_lt.2 hSum
  · rintro hOverflows
    obtain ⟨u, hUnit, hWhole, hFraction⟩ := id hOverflows
    have hSplit := Nat.div_add_mod (accumulatorBound - 1) u.nanos
    have hUnits : ofDigits s.whole * u.nanos < accumulatorBound := by
      have hLe := Nat.div_mul_le_self (accumulatorBound - 1) u.nanos
      rw [hWhole]
      exact Nat.lt_of_le_of_lt hLe (by decide)
    have hSome : (s.whole.isEmpty && (s.fraction?.getD []).isEmpty) = false := by
      cases hEmpty : s.fraction?.getD [] with
      | cons c rest => exact Bool.and_false _
      | nil =>
          -- A fraction without digits adds nothing.
          rw [hEmpty] at hFraction
          have hNothing : fractionNanos u [] = 0 := by
            show 0 * u.nanos / Nat.pow 10 0 = 0
            rw [Nat.zero_mul, Nat.zero_div]
          omega
    rw [nanos_eq_error_iff hUnit hSome]
    refine .inr ⟨hUnits, Nat.not_lt.1 fun hBelow => ?_, rfl⟩
    exact (worthIn_lt_iff hDigits hUnits).1 hBelow ((Segment.overflows_iff hUnit).1 hOverflows)

/-- A segment that is worth something is refused for its size only. -/
theorem fault_of_worth {nanos : Nat} {f : SpanFault} (hWorth : s.worth? = some nanos)
    (h : s.nanos = .error (.fault f)) : f = .malformed := by
  obtain ⟨hSome, u, hUnit, -⟩ := Segment.worth?_eq_some_iff.1 hWorth
  obtain ⟨-, hHalt⟩ | ⟨-, -, hHalt⟩ := (nanos_eq_error_iff hUnit hSome).1 h
  · exact Halt.fault.inj hHalt
  · cases hHalt

end Joining

/-! ## Sums -/

section Sums

variable {ss : List Segment} {total : Nat}

/-- **The sum of segments is what they are worth together**, below the bound. -/
theorem sumFrom_eq_ok_iff {sum : Nat} (hTotal : total < accumulatorBound) :
    sumFrom total ss = .ok sum ↔ ∃ ns, List.Forall₂ (fun s n => s.worth? = some n) ss ns ∧
      total + ns.sum = sum ∧ sum < accumulatorBound := by
  induction ss generalizing total with
  | nil =>
      rw [sumFrom]
      constructor
      · rintro ⟨⟩
        exact ⟨[], .nil, rfl, hTotal⟩
      · rintro ⟨ns, hEach, rfl, -⟩
        cases hEach
        rfl
  | cons s rest ih =>
      simp only [sumFrom, bind_eq_ok_iff, nanos_eq_ok_iff, bounded_eq_ok_iff]
      constructor
      · rintro ⟨n, ⟨hWorth, -⟩, _, ⟨hNext, rfl⟩, hRest⟩
        obtain ⟨ns, hEach, rfl, hBelow⟩ := (ih hNext).1 hRest
        exact ⟨n :: ns, .cons hWorth hEach, by rw [List.sum_cons, Nat.add_assoc], hBelow⟩
      · rintro ⟨_, hEach, hSum, hBelow⟩
        cases hEach with
        | @cons _ n _ ns hWorth hEach =>
            rw [List.sum_cons, ← Nat.add_assoc] at hSum
            have hNext : total + n < accumulatorBound := by omega
            exact ⟨n, ⟨hWorth, by omega⟩, _, ⟨hNext, rfl⟩, (ih hNext).2 ⟨ns, hEach, hSum, hBelow⟩⟩

/-- **The sum of segments overflows** at the first that does, if those in front of it are below the
bound. -/
theorem sumFrom_eq_overflow_iff (hDigits : ∀ s ∈ ss, ∀ c ∈ s.fraction?.getD [], c.isDigit = true)
    (hTotal : total < accumulatorBound) :
    sumFrom total ss = .error .overflow ↔ ∃ front s back ns, ss = front ++ s :: back ∧ s.Overflows ∧
      List.Forall₂ (fun s n => s.worth? = some n) front ns ∧ total + ns.sum < accumulatorBound := by
  induction ss generalizing total with
  | nil => simp [sumFrom]
  | cons s rest ih =>
      have hFirst := nanos_eq_overflow_iff (hDigits s (by simp))
      have hOthers : ∀ t ∈ rest, ∀ c ∈ t.fraction?.getD [], c.isDigit = true :=
        fun t ht => hDigits t (List.mem_cons_of_mem _ ht)
      simp only [sumFrom, bind_eq_error_iff, nanos_eq_ok_iff, bounded_eq_ok_iff, bounded_eq_error_iff,
        hFirst, reduceCtorEq, and_false, false_or]
      constructor
      · rintro (hOverflows | ⟨n, ⟨hWorth, -⟩, _, ⟨hNext, rfl⟩, hRest⟩)
        · exact ⟨[], s, rest, [], rfl, hOverflows, .nil, hTotal⟩
        · obtain ⟨front, t, back, ns, rfl, hOverflows, hEach, hBelow⟩ := (ih hOthers hNext).1 hRest
          exact ⟨s :: front, t, back, n :: ns, rfl, hOverflows, .cons hWorth hEach,
            by rwa [List.sum_cons, ← Nat.add_assoc]⟩
      · rintro ⟨front, t, back, ns, hSplit, hOverflows, hEach, hBelow⟩
        cases hEach with
        | nil =>
            rw [List.nil_append, List.cons.injEq] at hSplit
            exact .inl (hSplit.1 ▸ hOverflows)
        | @cons _ n front ns hWorth hEach =>
            rw [List.cons_append, List.cons.injEq] at hSplit
            obtain ⟨rfl, hRest⟩ := hSplit
            rw [List.sum_cons, ← Nat.add_assoc] at hBelow
            have hNext : total + n < accumulatorBound := by omega
            exact .inr ⟨n, ⟨hWorth, by omega⟩, _, ⟨hNext, rfl⟩,
              (ih hOthers hNext).2 ⟨front, t, back, ns, hRest, hOverflows, hEach, hBelow⟩⟩

/-- Segments that are below the bound together are so one by one. -/
theorem nanos_of_worths {ns : List Nat} (hWorths : List.Forall₂ (fun s n => s.worth? = some n) ss ns)
    (hSum : ns.sum < accumulatorBound) : List.Forall₂ (fun s n => s.nanos = .ok n) ss ns := by
  induction hWorths with
  | nil => exact .nil
  | cons hWorth _ ih =>
      rw [List.sum_cons] at hSum
      exact .cons (nanos_eq_ok_iff.2 ⟨hWorth, by omega⟩) (ih (by omega))

/-- Segments that are worth something each are refused for their size only. -/
theorem fault_of_worths {ns : List Nat} {f : SpanFault}
    (hWorths : List.Forall₂ (fun s n => s.worth? = some n) ss ns)
    (h : sumFrom total ss = .error (.fault f)) : f = .malformed := by
  induction hWorths generalizing total with
  | nil => cases h
  | cons hWorth _ ih =>
      simp only [sumFrom, bind_eq_error_iff, bounded_eq_error_iff] at h
      rcases h with hFirst | ⟨_, -, ⟨-, hSum⟩ | ⟨_, -, hRest⟩⟩
      · exact fault_of_worth hWorth hFirst
      · exact (Halt.fault.inj hSum).symm
      · exact ih hRest

end Sums

/-! ## Texts -/

theorem ofNanos?_eq_some_iff {n : Nat} {d : Span} : ofNanos? n = some d ↔ d.nanos = n := by
  unfold ofNanos?
  split
  · rw [Option.some.injEq, Span.ext_iff, eq_comm]
  · next hBeyond =>
      constructor
      · intro h
        cases h
      · intro h
        exact absurd (h ▸ d.nanos_lt) hBeyond

/-- The one text that denotes a span and has no unit. -/
theorem worths?_zero : worths? ['0'] = none := by
  unfold worths?
  rw [segments, List.mapM_cons]
  rfl

private theorem ne_zero_of_worths {cs : List Char} {ns : List Nat} (h : worths? cs = some ns) :
    cs ≠ ['0'] := by
  rintro rfl
  rw [worths?_zero] at h
  cases h

/-- What a text is read as: a bare `0`, or the sum of what its segments are worth. -/
theorem readTrimmed_eq_ok_iff {cs : List Char} {d : Span} :
    readTrimmed cs = .ok d ↔
      cs = ['0'] ∧ d.nanos = 0 ∨ cs ≠ [] ∧ ∃ ns, worths? cs = some ns ∧ ns.sum = d.nanos := by
  by_cases hZero : cs = ['0']
  · subst hZero
    simp [readTrimmed, worths?_zero, Span.ext_iff, zero, eq_comm]
  by_cases hText : cs = []
  · subst hText
    simp [readTrimmed]
  have hBound : d.nanos < accumulatorBound := Nat.lt_trans d.nanos_lt (by decide)
  rw [readTrimmed, if_neg hZero, if_neg (by simpa using hText)]
  simp only [hZero, hText, false_and, false_or, ne_eq, not_false_eq_true, true_and, worths?,
    Text.mapM_eq_some_iff]
  simp only [bind_eq_ok_iff, sumFrom_eq_ok_iff (show 0 < accumulatorBound by decide), Nat.zero_add]
  constructor
  · rintro ⟨total, ⟨ns, hEach, rfl, -⟩, hRead⟩
    refine ⟨ns, hEach, ?_⟩
    split at hRead
    · next hSpan =>
        cases hRead
        exact (ofNanos?_eq_some_iff.1 hSpan).symm
    · cases hRead
  · rintro ⟨ns, hEach, hSum⟩
    refine ⟨d.nanos, ⟨ns, hEach, hSum, hBound⟩, ?_⟩
    rw [ofNanos?_eq_some_iff.2 rfl]
    rfl

/-- A text of segments that are worth something each is refused for its size only. -/
theorem fault_of_read {input : String} {ns : List Nat} {f : SpanFault}
    (hText : Text.trim input.toList ≠ []) (hWorths : worths? (Text.trim input.toList) = some ns)
    (h : read input = .error (.fault f)) : f = .malformed := by
  have hZero := ne_zero_of_worths hWorths
  rw [read, readTrimmed, if_neg hZero, if_neg (by simpa using hText), bind_eq_error_iff] at h
  rcases h with hSum | ⟨total, -, hSpan⟩
  · exact fault_of_worths (Text.mapM_eq_some_iff.1 hWorths) hSum
  · split at hSpan <;> cases hSpan
    rfl

/-- **Which texts overflow.** -/
theorem readTrimmed_eq_overflow_iff {cs : List Char} :
    readTrimmed cs = .error .overflow ↔ Overflows cs := by
  have hSum := sumFrom_eq_overflow_iff (fun s (hs : s ∈ segments cs) => isDigit_of_mem_segments hs)
    (show 0 < accumulatorBound by decide)
  simp only [Nat.zero_add] at hSum
  rw [Overflows, ← hSum]
  by_cases hZero : cs = ['0']
  · subst hZero
    have hBare : sumFrom 0 (segments ['0']) = .error (.fault .missingUnit) := by decide +kernel
    rw [hBare]
    simp [readTrimmed]
  by_cases hText : cs = []
  · subst hText
    simp [readTrimmed, segments, sumFrom]
  rw [readTrimmed, if_neg hZero, if_neg (by simpa using hText), bind_eq_error_iff]
  constructor
  · rintro (h | ⟨total, -, hSpan⟩)
    · exact h
    · split at hSpan <;> cases hSpan
  · exact .inl

/-- **What a text is read as, by what its segments are worth.** The numbers that a fraction is divided
from stay below the bound, and a fraction leads beyond it exactly in the segments that overflow. A text is
never read as anything but the sum of what its segments are worth. It overflows at a segment that does,
unless those in front of it are refused before, and is refused if it does not overflow and its sum is
`2 ^ 64` seconds or more. -/
theorem read_of_worths {input : String} {ns : List Nat} (hText : Text.trim input.toList ≠ [])
    (hWorths : worths? (Text.trim input.toList) = some ns) :
    (∀ s ∈ segments (Text.trim input.toList), ∀ u, TimeUnit.ofName? s.unit = some u →
      ofDigits ((s.fraction?.getD []).take fractionDigits) * u.nanos < accumulatorBound ∧
      Nat.pow 10 ((s.fraction?.getD []).take fractionDigits).length < accumulatorBound ∧
      (ofDigits s.whole * u.nanos < accumulatorBound →
        (s.worthIn u < accumulatorBound ↔ ¬s.Overflows))) ∧
    (∀ d, read input = .ok d ↔ d.nanos = ns.sum) ∧
    (read input = .error .overflow ↔ Overflows (Text.trim input.toList)) ∧
    (read input = .error (.fault .malformed) ↔
      secondsBound * nanosPerSecond ≤ ns.sum ∧ ¬Overflows (Text.trim input.toList)) := by
  have hRead : ∀ d, read input = .ok d ↔ d.nanos = ns.sum := by
    intro d
    rw [read, readTrimmed_eq_ok_iff, hWorths]
    simp [ne_zero_of_worths hWorths, hText, eq_comm]
  have hOverflow : read input = .error .overflow ↔ Overflows (Text.trim input.toList) :=
    readTrimmed_eq_overflow_iff
  refine ⟨?_, hRead, hOverflow, ?_⟩
  · intro s hs u hUnit
    have hDigits := isDigit_of_mem_segments hs
    obtain ⟨hProduct, hPower⟩ := fraction_bounds u hDigits
    refine ⟨hProduct, hPower, fun hUnits => ?_⟩
    rw [worthIn_lt_iff hDigits hUnits, Segment.overflows_iff hUnit]
  · rw [← hOverflow]
    constructor
    · intro hRefused
      rw [hRefused]
      refine ⟨Nat.not_lt.1 fun hSpan => ?_, nofun⟩
      exact absurd (hRefused.symm.trans ((hRead ⟨ns.sum, hSpan⟩).2 rfl)) nofun
    · rintro ⟨hLong, hKept⟩
      cases hResult : read input with
      | ok d => exact absurd d.nanos_lt (by rw [(hRead d).1 hResult]; omega)
      | error halt =>
          cases halt with
          | overflow => exact absurd hResult hKept
          | fault f => rw [fault_of_read hText hWorths hResult]

/-- The shortest text beyond the range that ends in microseconds is refused, and one nanosecond less is
read. -/
theorem read_of_worths_edge :
    read "18446744073709551615s999.999ms1us" = .error (.fault .malformed) ∧
      ∃ d, read "18446744073709551615s999.999ms.999us" = .ok d ∧
        d.nanos + 1 = secondsBound * nanosPerSecond := by
  have hBeyond : worths? (Text.trim "18446744073709551615s999.999ms1us".toList) =
      some [18446744073709551615000000000, 999999000, 1000] := by decide +kernel
  have hLast : worths? (Text.trim "18446744073709551615s999.999ms.999us".toList) =
      some [18446744073709551615000000000, 999999000, 999] := by decide +kernel
  obtain ⟨-, -, hOverflow, hRefused⟩ := read_of_worths (by decide +kernel) hBeyond
  obtain ⟨-, hRead, -⟩ := read_of_worths (by decide +kernel) hLast
  constructor
  · refine hRefused.2 ⟨by decide, ?_⟩
    rw [← hOverflow]
    decide +kernel
  · exact ⟨⟨18446744073709551615999999999, by decide⟩, (hRead _).2 rfl, rfl⟩

/-- **A text that is worth more than a span can be, and is not refused.** Its hours alone are almost the
bound, and the fraction leads beyond: there reading breaks off. -/
theorem read_of_overflow :
    ∃ n, worths? (Text.trim "94522879700260684295381835.999999999999h".toList) = some [n] ∧
      secondsBound * nanosPerSecond ≤ n ∧ accumulatorBound ≤ n ∧
      read "94522879700260684295381835.999999999999h" = .error .overflow := by
  exact ⟨340282366920938463463374609600000000000 - 4, by decide +kernel, by decide, by decide,
    by decide +kernel⟩

end ControlClient.Span
