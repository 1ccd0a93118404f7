/-!
# Rounding to nearest, halves to even

`divNearest n d` is the integer nearest to the quotient `n / d`, and of two that are equally near the
even one. On it rests `roundBits`, the nearest number whose binary significand has a given length,
which is how an integer becomes a double.

## Main results

* `divNearest_bounds`: the result is within half a unit of the quotient.
* `divNearest_of_dvd`: an exact quotient is kept.
-/

namespace ControlClient.Number

/-- The integer nearest to `n / d`; a half goes to the even neighbour. -/
def divNearest (n d : Nat) : Nat :=
  let q := n / d
  let r := n % d
  if 2 * r < d ∨ (2 * r = d ∧ q % 2 = 0) then q else q + 1

/-- The number nearest to `n` among those whose binary significand has at most `bits` digits. -/
def roundBits (bits n : Nat) : Nat :=
  let unit := Nat.pow 2 (n.log2 + 1 - bits)
  divNearest n unit * unit

/-- The result is within half a unit of the quotient. -/
theorem divNearest_bounds {n d : Nat} (hd : 0 < d) :
    2 * n ≤ (2 * divNearest n d + 1) * d ∧ 2 * divNearest n d * d ≤ 2 * n + d := by
  have hDiv := Nat.div_add_mod n d
  have hMod := Nat.mod_lt n hd
  generalize hq : n / d = q at hDiv
  generalize hr : n % d = r at hDiv hMod
  have hUp : (2 * q + 1) * d = 2 * (d * q) + d := by
    rw [Nat.add_mul, Nat.one_mul, Nat.mul_assoc, Nat.mul_comm q d]
  have hDown : 2 * q * d = 2 * (d * q) := by rw [Nat.mul_assoc, Nat.mul_comm q d]
  have hUp' : (2 * (q + 1) + 1) * d = 2 * (d * q) + 3 * d := by
    rw [show 2 * (q + 1) + 1 = 2 * q + 3 by omega, Nat.add_mul, Nat.mul_assoc, Nat.mul_comm q d]
  have hDown' : 2 * (q + 1) * d = 2 * (d * q) + 2 * d := by
    rw [show 2 * (q + 1) = 2 * q + 2 by omega, Nat.add_mul, Nat.mul_assoc, Nat.mul_comm q d]
  simp only [divNearest, hq, hr]
  split
  · rw [hUp, hDown]; omega
  · rw [hUp', hDown']; omega

theorem divNearest_of_dvd {n d : Nat} (hd : 0 < d) (h : d ∣ n) : divNearest n d = n / d := by
  have hMod : n % d = 0 := Nat.mod_eq_zero_of_dvd h
  simp [divNearest, hMod, hd]

end ControlClient.Number
