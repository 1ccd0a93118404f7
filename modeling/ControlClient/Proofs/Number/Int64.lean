import ControlClient.Number.Int64

/-!
# 64-bit integers read back

Digits are taken from the left, and the number that they make so far only grows. So a run of digits is
within a limit if the number that it denotes is, and what is written of a 64-bit integer reads back: the
limit on either side of zero is the one of the type.

## Main results

* `readUpTo_digits`: a number within the limit is read from its digits.
* `readInt64_intText`: a 64-bit integer reads back.
* `int64?_toInt`: the integer of a word gives the word back.
* `intText_injective`: different integers are written differently.
-/

namespace ControlClient.Number

open Text (digits)

/-- More digits make no smaller number. -/
private theorem le_ofDigitChars (cs : List Char) (n : Nat) : n ≤ Nat.ofDigitChars 10 cs n := by
  induction cs generalizing n with
  | nil => exact Nat.le_refl n
  | cons c rest ih =>
      rw [Nat.ofDigitChars_cons]
      have hRest := ih (10 * n + (c.toNat - '0'.toNat))
      omega

/-- A run of digits is read if the number that it denotes behind others is within the limit. -/
private theorem readUpTo_of_le {limit : Nat} {beyond : Int64Fault} {cs : List Char} {n : Nat}
    (hDigits : ∀ c ∈ cs, c.isDigit = true) (hLimit : Nat.ofDigitChars 10 cs n ≤ limit) :
    readUpTo limit beyond n cs = .ok (Nat.ofDigitChars 10 cs n) := by
  induction cs generalizing n with
  | nil => rfl
  | cons c rest ih =>
      have hDigit : c.isDigit = true := hDigits c (by simp)
      have hNext : n * 10 + (c.toNat - 48) = 10 * n + (c.toNat - '0'.toNat) := by
        rw [Nat.mul_comm]
        rfl
      rw [Nat.ofDigitChars_cons] at hLimit ⊢
      have hGrows := le_ofDigitChars rest (10 * n + (c.toNat - '0'.toNat))
      rw [readUpTo, hDigit, hNext]
      dsimp only
      rw [if_neg (by simp), if_neg (by omega)]
      exact ih (fun d hd => hDigits d (List.mem_cons_of_mem _ hd)) hLimit

/-- **A number within the limit is read from its digits.** -/
theorem readUpTo_digits {limit n : Nat} (beyond : Int64Fault) (h : n ≤ limit) :
    readUpTo limit beyond 0 (digits n) = .ok n := by
  have hValue : Nat.ofDigitChars 10 (digits n) 0 = n := Text.ofDigits_digits n
  rw [readUpTo_of_le (fun c hc => Text.isDigit_of_mem_digits hc) (by rwa [hValue]), hValue]

/-- Digits without a sign are read as they are. -/
private theorem readInt64_digits (n : Nat) :
    readInt64 (digits n) =
      (readUpTo 0x7FFFFFFFFFFFFFFF .tooLarge 0 (digits n)).map (Int64.ofInt ·) := by
  obtain ⟨c, rest, hDigits⟩ := List.exists_cons_of_ne_nil (Text.digits_ne_nil n)
  have hDigit : c.isDigit = true := Text.isDigit_of_mem_digits (by rw [hDigits]; simp)
  have hPlus : c ≠ '+' := by
    rintro rfl
    exact absurd hDigit (by decide)
  have hMinus : c ≠ '-' := by
    rintro rfl
    exact absurd hDigit (by decide)
  rw [hDigits]
  unfold readInt64
  split <;> simp_all

/-- A sign in front of digits is read as one. -/
private theorem readInt64_minus (n : Nat) :
    readInt64 ('-' :: digits n) =
      (readUpTo 0x8000000000000000 .tooSmall 0 (digits n)).map fun n => Int64.ofInt (-n) := by
  obtain ⟨c, rest, hDigits⟩ := List.exists_cons_of_ne_nil (Text.digits_ne_nil n)
  rw [hDigits]
  rfl

/-- **A 64-bit integer reads back.** -/
theorem readInt64_intText (n : Int64) : readInt64 (Text.intText n.toInt).toList = .ok n := by
  have hLow := n.le_toInt
  have hHigh := n.toInt_lt
  unfold Text.intText
  by_cases hNegative : n.toInt < 0
  · have hSame : -((n.toInt.natAbs : Nat) : Int) = n.toInt := by omega
    have hText : ("-" ++ Text.digitText n.toInt.natAbs).toList = '-' :: digits n.toInt.natAbs := by
      simp [Text.digitText]
    rw [if_pos hNegative, hText, readInt64_minus, readUpTo_digits _ (by omega)]
    show Except.ok (Int64.ofInt (-(n.toInt.natAbs : Int))) = _
    rw [hSame, Int64.ofInt_toInt]
  · have hSame : ((n.toInt.natAbs : Nat) : Int) = n.toInt := by omega
    rw [if_neg hNegative, Text.digitText, String.toList_ofList, readInt64_digits,
      readUpTo_digits _ (by omega)]
    show Except.ok (Int64.ofInt (n.toInt.natAbs : Int)) = _
    rw [hSame, Int64.ofInt_toInt]

/-- **The integer of a word is within its range**, and gives the word back. -/
theorem int64?_toInt (n : Int64) : int64? n.toInt = some n := by
  unfold int64?
  rw [if_pos ⟨n.le_toInt, n.toInt_lt⟩, Int64.ofInt_toInt]

/-- The integers of words are those within the range. -/
theorem int64?_eq_some_iff {n : Int} {word : Int64} : int64? n = some word ↔ n = word.toInt := by
  constructor
  · intro h
    unfold int64? at h
    split at h
    · next hRange =>
        cases h
        exact (Int64.toInt_ofInt_of_le hRange.1 hRange.2).symm
    · cases h
  · rintro rfl
    exact int64?_toInt word

/-- Different integers are written differently. -/
theorem intText_injective {m n : Int64} (h : Text.intText m.toInt = Text.intText n.toInt) : m = n := by
  have hSame : (Except.ok m : Except Int64Fault Int64) = .ok n := by
    rw [← readInt64_intText m, h, readInt64_intText n]
  exact Except.ok.inj hSame

end ControlClient.Number
