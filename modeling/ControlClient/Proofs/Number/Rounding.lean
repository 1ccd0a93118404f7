import ControlClient.Number.Rounding
import Mathlib.Algebra.Order.Ring.Nat

/-!
# Rounding keeps the order

Rounding a quotient keeps the order of the dividends: a result out of order would have to be a whole unit
off, and each is off by half a unit at most. For numbers that are brought to a significand of a given
length this is not enough, since the unit grows with the number. But a number never leaves the powers of
two around it when it is rounded, and numbers with the same powers of two around them have one unit.

## Main results

* `divNearest_mono`, `roundBits_mono`: rounding keeps the order.
* `roundBits_bounds`: the result is within half a unit of the number.
* `roundBits_of_dvd`, `roundBits_of_le`: numbers that are kept.
-/

namespace ControlClient.Number

/-! ## Quotients -/

section Quotients

variable {d k m n : Nat} (hd : 0 < d)
include hd

/-- **Rounding a quotient keeps the order.** -/
theorem divNearest_mono (h : m ≤ n) : divNearest m d ≤ divNearest n d := by
  obtain ⟨-, hDown⟩ := divNearest_bounds (n := m) hd
  obtain ⟨hUp, -⟩ := divNearest_bounds (n := n) hd
  by_contra hLess
  have hScaled : (2 * divNearest n d + 1 + 1) * d ≤ 2 * divNearest m d * d :=
    Nat.mul_le_mul_right d (by omega)
  rw [Nat.add_one_mul] at hScaled
  -- The bounds only touch if both dividends are halfway between the results.
  obtain rfl : m = n := by omega
  exact hLess (Nat.le_refl _)

theorem divNearest_mul_self (k : Nat) : divNearest (k * d) d = k := by
  rw [divNearest_of_dvd hd (Nat.dvd_mul_left d k), Nat.mul_div_cancel k hd]

theorem divNearest_le (h : n ≤ k * d) : divNearest n d ≤ k :=
  (divNearest_mono hd h).trans_eq (divNearest_mul_self hd k)

theorem le_divNearest (h : k * d ≤ n) : k ≤ divNearest n d :=
  (divNearest_mul_self hd k).symm.trans_le (divNearest_mono hd h)

end Quotients

/-! ## Significands of a given length -/

section Significands

variable {bits m n : Nat}

/-- How far apart the numbers with so many binary digits are around a number. -/
def unitAt (bits n : Nat) : Nat := 2 ^ (n.log2 + 1 - bits)

theorem unitAt_pos (bits n : Nat) : 0 < unitAt bits n := Nat.two_pow_pos _

theorem roundBits_eq (bits n : Nat) :
    roundBits bits n = divNearest n (unitAt bits n) * unitAt bits n := rfl

/-- **The result is within half a unit of the number.** -/
theorem roundBits_bounds (bits n : Nat) :
    2 * n ≤ 2 * roundBits bits n + unitAt bits n ∧ 2 * roundBits bits n ≤ 2 * n + unitAt bits n := by
  obtain ⟨hUp, hDown⟩ := divNearest_bounds (n := n) (unitAt_pos bits n)
  rw [Nat.add_one_mul (2 * divNearest n (unitAt bits n)), Nat.mul_assoc] at hUp
  rw [Nat.mul_assoc] at hDown
  exact ⟨hUp, hDown⟩

/-- A multiple of the unit is kept. -/
theorem roundBits_of_dvd (h : unitAt bits n ∣ n) : roundBits bits n = n := by
  rw [roundBits_eq, divNearest_of_dvd (unitAt_pos bits n) h, Nat.div_mul_cancel h]

/-- A number with no more binary digits is kept, and so is the least one with more. -/
theorem roundBits_of_le (hBits : 0 < bits) (h : n ≤ 2 ^ bits) : roundBits bits n = n := by
  apply roundBits_of_dvd
  rcases Nat.eq_or_lt_of_le h with rfl | hLess
  · exact Nat.pow_dvd_pow 2 (by rw [Nat.log2_two_pow]; omega)
  · have hLog : n.log2 < bits := by
      rcases Nat.eq_zero_or_pos n with rfl | hPos
      · simpa using hBits
      · exact (Nat.log2_lt (by omega)).2 hLess
    rw [unitAt, show n.log2 + 1 - bits = 0 by omega]
    exact Nat.one_dvd n

/-- A number is not rounded beyond a multiple of its unit. -/
theorem roundBits_le (hUnit : unitAt bits n ∣ m) (h : n ≤ m) : roundBits bits n ≤ m := by
  obtain ⟨k, rfl⟩ := hUnit
  rw [Nat.mul_comm] at h ⊢
  exact Nat.mul_le_mul_right _ (divNearest_le (unitAt_pos bits n) h)

theorem le_roundBits (hUnit : unitAt bits n ∣ m) (h : m ≤ n) : m ≤ roundBits bits n := by
  obtain ⟨k, rfl⟩ := hUnit
  rw [Nat.mul_comm] at h ⊢
  exact Nat.mul_le_mul_right _ (le_divNearest (unitAt_pos bits n) h)

/-- **Bringing numbers to a significand of some length keeps their order.** -/
theorem roundBits_mono (hBits : 0 < bits) (h : m ≤ n) : roundBits bits m ≤ roundBits bits n := by
  rcases Nat.eq_zero_or_pos m with rfl | hPos
  · rw [roundBits_of_le hBits (Nat.zero_le _)]
    exact Nat.zero_le _
  · have hLog : m.log2 ≤ n.log2 :=
      (Nat.le_log2 (by omega)).2 ((Nat.log2_self_le (by omega)).trans h)
    rcases Nat.eq_or_lt_of_le hLog with hSame | hLess
    · have hUnit : unitAt bits m = unitAt bits n := by rw [unitAt, unitAt, hSame]
      rw [roundBits_eq, roundBits_eq, hUnit]
      exact Nat.mul_le_mul_right _ (divNearest_mono (unitAt_pos bits n) h)
    · -- The power of two above the smaller number is at most the one below the greater.
      calc roundBits bits m
        _ ≤ 2 ^ (m.log2 + 1) :=
          roundBits_le (Nat.pow_dvd_pow 2 (by omega)) (Nat.le_of_lt Nat.lt_log2_self)
        _ ≤ 2 ^ n.log2 := Nat.pow_le_pow_right (by decide) hLess
        _ ≤ roundBits bits n :=
          le_roundBits (Nat.pow_dvd_pow 2 (by omega)) (Nat.log2_self_le (by omega))

end Significands

end ControlClient.Number
