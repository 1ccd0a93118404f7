import ControlClient.Text.Blank
import ControlClient.Text.Digits
import Mathlib.Algebra.GroupWithZero.Nat
import Mathlib.Data.List.Induction

/-!
# Digits and the numbers they denote

A run of digits denotes a number in base ten, and many runs denote the same one, since zeros in front do not
count. Two runs of the same length that denote the same number are the same run. From this follows all that is
needed of numerals, which have no zero in front: the shorter of two that denote the same number can be filled
up with zeros, and is then the other.

## Main results

* `ofDigits_lt`: how large a number is that a run of digits denotes.
* `eq_of_ofDigits_eq`: digits are determined by their number and their length.
* `digits_ofDigits`: a numeral is how its number is written.
-/

namespace ControlClient.Text

/-- A run of decimal digits, which may be empty. -/
def AreDigits (ds : List Char) : Prop := ∀ c ∈ ds, c.isDigit = true

theorem areDigits_append {ds es : List Char} : AreDigits (ds ++ es) ↔ AreDigits ds ∧ AreDigits es :=
  List.forall_mem_append

theorem areDigits_zeros (n : Nat) : AreDigits (List.replicate n '0') := by
  intro c hc
  rw [List.eq_of_mem_replicate hc]
  rfl

theorem areDigits_digits (n : Nat) : AreDigits (digits n) := fun _ hc => isDigit_of_mem_digits hc

/-! ## Numbers -/

theorem ofDigits_append (ds es : List Char) :
    ofDigits (ds ++ es) = ofDigits ds * 10 ^ es.length + ofDigits es := by
  rw [ofDigits, Nat.ofDigitChars_append, Nat.ofDigitChars_eq_ofDigitChars_zero, Nat.mul_comm]
  rfl

theorem ofDigits_singleton (c : Char) : ofDigits [c] = c.toNat - 48 := by
  rw [ofDigits, Nat.ofDigitChars_cons, Nat.mul_zero, Nat.zero_add]
  rfl

theorem ofDigits_zeros (n : Nat) : ofDigits (List.replicate n '0') = 0 := by
  rw [ofDigits, Nat.ofDigitChars_replicate_zero, Nat.mul_zero]

/-! ## Zeros in front -/

theorem ofDigits_digitsPadded (width n : Nat) : ofDigits (digitsPadded width n) = n := by
  rw [digitsPadded, ofDigits_append, ofDigits_zeros, Nat.zero_mul, Nat.zero_add, ofDigits_digits]

theorem length_digitsPadded {width n : Nat} (hWidth : 0 < width) (h : n < Nat.pow 10 width) :
    (digitsPadded width n).length = width := by
  have hLength : (digits n).length ≤ width := (Nat.length_toDigits_le_iff (by decide) hWidth).2 h
  rw [digitsPadded, List.length_append, List.length_replicate]
  omega

theorem areDigits_digitsPadded (width n : Nat) : AreDigits (digitsPadded width n) :=
  areDigits_append.2 ⟨areDigits_zeros _, areDigits_digits n⟩

/-! ## Digits and their number -/

/-- The codes of digits, as numbers. -/
theorem code_of_isDigit {c : Char} (h : c.isDigit = true) : 48 ≤ c.toNat ∧ c.toNat ≤ 57 :=
  Char.isDigit_iff_toNat.1 h

/-- Digits are no blanks. -/
theorem isBlank_of_isDigit {c : Char} (h : c.isDigit = true) : isBlank c = false := by
  have hCode := code_of_isDigit h
  simp only [isBlank, blankRanges, Ranges.contains, List.any_cons, List.any_nil]
  grind

/-- A run of digits denotes less than the power of ten with as many zeros. -/
theorem ofDigits_lt {ds : List Char} (h : AreDigits ds) : ofDigits ds < 10 ^ ds.length := by
  -- Digits are read from the left, so the last one is split off.
  induction ds using List.reverseRecOn with
  | nil => decide
  | append_singleton ds c ih =>
      obtain ⟨hFront, hLast⟩ := areDigits_append.1 h
      have hCode := code_of_isDigit (hLast c (by simp))
      have hBelow := ih hFront
      rw [ofDigits_append, ofDigits_singleton, List.length_append, List.length_singleton, Nat.pow_succ]
      omega

/-- **Digits are determined by their number and their length.** -/
theorem eq_of_ofDigits_eq {ds es : List Char} (hds : AreDigits ds) (hes : AreDigits es)
    (hLength : ds.length = es.length) (hNumber : ofDigits ds = ofDigits es) : ds = es := by
  induction ds using List.reverseRecOn generalizing es with
  | nil => exact (List.eq_nil_of_length_eq_zero hLength.symm).symm
  | append_singleton ds c ih =>
      rcases List.eq_nil_or_concat es with rfl | ⟨front, d, rfl⟩
      · simp at hLength
      rw [List.concat_eq_append] at hes hLength hNumber ⊢
      obtain ⟨hFront, hLast⟩ := areDigits_append.1 hds
      obtain ⟨hOtherFront, hOtherLast⟩ := areDigits_append.1 hes
      have hc := code_of_isDigit (hLast c (by simp))
      have hd := code_of_isDigit (hOtherLast d (by simp))
      rw [ofDigits_append, ofDigits_append, ofDigits_singleton, ofDigits_singleton,
        List.length_singleton, List.length_singleton] at hNumber
      have hSame : ds = front := ih hFront hOtherFront (by simpa using hLength) (by omega)
      have hCode : c.toNat = d.toNat := by omega
      rw [hSame, Char.toNat_inj.1 hCode]

/-- Digits of which the last is not zero do not denote zero. -/
theorem ofDigits_ne_zero {ds : List Char} (h : AreDigits ds) (hSome : ds ≠ [])
    (hLast : ds.getLast? ≠ some '0') : ofDigits ds ≠ 0 := by
  intro hZero
  have hZeros : ds = List.replicate ds.length '0' :=
    eq_of_ofDigits_eq h (areDigits_zeros _) List.length_replicate.symm (by rw [hZero, ofDigits_zeros])
  apply hLast
  rw [hZeros, List.getLast?_replicate, if_neg (by simpa using hSome)]

/-! ## Numerals -/

/-- A natural number as it is written: digits without a zero in front, or a single zero. -/
structure IsNumeral (ds : List Char) : Prop where
  ne_nil : ds ≠ []
  areDigits : AreDigits ds
  eq_zero : ds.head? = some '0' → ds = ['0']

private theorem digitChar_ne_zero {d : Nat} (hPositive : 0 < d) (h : d < 10) : d.digitChar ≠ '0' := by
  have hAll : ∀ d < 10, 0 < d → d.digitChar ≠ '0' := by decide
  exact hAll d h hPositive

/-- No zero is written in front of a number. -/
theorem head?_digits {n : Nat} (h : 0 < n) : (digits n).head? ≠ some '0' := by
  induction n using Nat.strongRecOn with
  | ind n ih =>
      by_cases hSmall : n < 10
      · rw [digits, Nat.toDigits_of_lt_base hSmall, List.head?_cons]
        exact fun hZero => digitChar_ne_zero h hSmall (Option.some.inj hZero)
      · have hFront : 0 < n / 10 := by omega
        have hSplit : digits n = digits (n / 10) ++ digits (n % 10) := by
          have hDigits := Nat.toDigits_append_toDigits (n := n / 10) (d := n % 10) (by decide) hFront
            (Nat.mod_lt n (by decide))
          rw [Nat.div_add_mod] at hDigits
          exact hDigits.symm
        obtain ⟨c, more, hc⟩ := List.exists_cons_of_ne_nil (digits_ne_nil (n / 10))
        have hFirst := ih (n / 10) (by omega) hFront
        rwa [hSplit, hc, List.cons_append, List.head?_cons, ← List.head?_cons (l := more), ← hc]

theorem isNumeral_digits (n : Nat) : IsNumeral (digits n) where
  ne_nil := digits_ne_nil n
  areDigits := areDigits_digits n
  eq_zero := by
    intro hZero
    rcases Nat.eq_zero_or_pos n with rfl | hPositive
    · rfl
    · exact absurd hZero (head?_digits hPositive)

/-- Of two numerals that denote the same number, none has more digits. -/
private theorem length_le_of_ofDigits_eq {ds es : List Char} (hds : IsNumeral ds) (hes : IsNumeral es)
    (h : ofDigits ds = ofDigits es) : es.length ≤ ds.length := by
  by_contra hLonger
  -- Filled up with zeros, the shorter numeral is the longer one, which then starts with a zero.
  have hFilled : List.replicate (es.length - ds.length) '0' ++ ds = es := by
    apply eq_of_ofDigits_eq (areDigits_append.2 ⟨areDigits_zeros _, hds.areDigits⟩) hes.areDigits
    · rw [List.length_append, List.length_replicate]
      omega
    · rw [ofDigits_append, ofDigits_zeros, Nat.zero_mul, Nat.zero_add, h]
  obtain ⟨k, hk⟩ := Nat.exists_eq_succ_of_ne_zero (show es.length - ds.length ≠ 0 by omega)
  have hHead : es.head? = some '0' := by
    rw [← hFilled, hk]
    rfl
  have hShort : es.length = 1 := congrArg List.length (hes.eq_zero hHead)
  exact hds.ne_nil (List.eq_nil_of_length_eq_zero (by omega))

/-- **A numeral is how its number is written.** -/
theorem digits_ofDigits {ds : List Char} (h : IsNumeral ds) : digits (ofDigits ds) = ds := by
  have hNumber : ofDigits (digits (ofDigits ds)) = ofDigits ds := ofDigits_digits _
  have hWritten := isNumeral_digits (ofDigits ds)
  exact eq_of_ofDigits_eq hWritten.areDigits h.areDigits
    (Nat.le_antisymm (length_le_of_ofDigits_eq h hWritten hNumber.symm)
      (length_le_of_ofDigits_eq hWritten h hNumber)) hNumber

end ControlClient.Text
