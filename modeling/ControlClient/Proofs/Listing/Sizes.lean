import ControlClient.Listing
import ControlClient.Proofs.Number.Rounding
import ControlClient.Proofs.Text.Digits
import Mathlib.Algebra.Order.Field.Basic
import Mathlib.Algebra.Order.Field.Rat
import Mathlib.Tactic.Linarith
import Mathlib.Tactic.NormNum

/-!
# Sizes of recordings

The size of a recording is rounded twice: to 53 binary digits, and then to hundredths of `2 ^ 20` bytes. Each
rounding keeps the order of sizes, so what is shown does. The second one is off by half a hundredth at most,
and the first one by nothing up to `2 ^ 53` and by half of `2 ^ 10` bytes up to the greatest size.

What a cell says is a number, by the digits around its point (`Shows`); a minus sign may stand in front of a
zero.

## Main results

* `shows_unique`: a cell shows one number.
* `shows_sizeCell`: the cell of a size shows its hundredths.
* `size_shown`: how far off sizes are shown, and that their order is kept.
-/

namespace ControlClient.Listing

open Number
open Text (AreDigits areDigits_append areDigits_digits areDigits_digitsPadded length_digitsPadded ofDigits
  ofDigits_digitsPadded)

/-! ## Decimals with two places -/

/-- Digits with a point in front of the last two, and the number of hundredths that they denote. -/
def Denotes (cs : List Char) (hundredths : Nat) : Prop :=
  ∃ whole places, cs = whole ++ '.' :: places ∧ whole ≠ [] ∧ places.length = 2 ∧
    AreDigits (whole ++ places) ∧ hundredths = ofDigits (whole ++ places)

/-- A decimal with two places, and the number that it shows. -/
inductive Shows : List Char → ℚ → Prop where
  | unsigned {cs : List Char} {n : Nat} (h : Denotes cs n) : Shows cs (n / 100)
  | negative {cs : List Char} {n : Nat} (h : Denotes cs n) : Shows ('-' :: cs) (-(n / 100))

theorem denotes_unique {cs : List Char} {m n : Nat} (hm : Denotes cs m) (hn : Denotes cs n) : m = n := by
  obtain ⟨whole, places, rfl, -, hTwo, -, rfl⟩ := hm
  obtain ⟨whole', places', hSame, -, hTwo', -, rfl⟩ := hn
  obtain ⟨rfl, hPoint⟩ := List.append_inj' hSame (by rw [List.length_cons, List.length_cons, hTwo, hTwo'])
  obtain ⟨-, rfl⟩ := List.cons.inj hPoint
  rfl

/-- A sign is no digit. -/
theorem not_denotes_minus {cs : List Char} {n : Nat} : ¬Denotes ('-' :: cs) n := by
  rintro ⟨whole, places, hText, hSome, -, hDigits, -⟩
  obtain ⟨c, rest, rfl⟩ := List.exists_cons_of_ne_nil hSome
  obtain ⟨rfl, -⟩ := List.cons.inj hText
  exact absurd (hDigits '-' (by simp)) (by decide)

/-- **A cell shows one number.** -/
theorem shows_unique {cs : List Char} {v w : ℚ} (hv : Shows cs v) (hw : Shows cs w) : v = w := by
  cases hv with
  | unsigned hm =>
      cases hw with
      | unsigned hn => rw [denotes_unique hm hn]
      | negative hn => exact absurd hm not_denotes_minus
  | negative hm =>
      cases hw with
      | unsigned hn => exact absurd hn not_denotes_minus
      | negative hn => rw [denotes_unique hm hn]

/-! ## What a cell shows -/

/-- The number that is shown of a size. -/
def shownSize (size : Int) : ℚ :=
  if size < 0 then -(hundredths size.natAbs / 100) else hundredths size.natAbs / 100

theorem denotes_hundredths (n : Nat) :
    Denotes (Text.digits (n / 100) ++ '.' :: Text.digitsPadded 2 (n % 100)) n := by
  have hTwo : (Text.digitsPadded 2 (n % 100)).length = 2 :=
    length_digitsPadded (by decide) (Nat.mod_lt n (by decide))
  refine ⟨_, _, rfl, Text.digits_ne_nil _, hTwo,
    areDigits_append.2 ⟨areDigits_digits _, areDigits_digitsPadded _ _⟩, ?_⟩
  rw [Text.ofDigits_append, hTwo, Text.ofDigits_digits, ofDigits_digitsPadded]
  omega

/-- **The cell of a size shows its hundredths**, with its sign. -/
theorem shows_sizeCell (size : Int) : Shows (sizeCell size) (shownSize size) := by
  have hCell := denotes_hundredths (hundredths size.natAbs)
  unfold sizeCell shownSize
  split
  · rw [List.append_assoc]
    exact .negative hCell
  · exact .unsigned hCell

example : sizeCell (-1) = "-0.00".toList := by decide

/-! ## Order -/

theorem hundredths_mono {m n : Nat} (h : m ≤ n) : hundredths m ≤ hundredths n :=
  divNearest_mono (by decide) (Nat.mul_le_mul_right 100 (roundBits_mono (by decide) h))

/-- **The order of sizes is kept.** -/
theorem shownSize_mono {s t : Int} (h : s ≤ t) : shownSize s ≤ shownSize t := by
  unfold shownSize
  split
  · split
    · have hGreater : hundredths t.natAbs ≤ hundredths s.natAbs := hundredths_mono (by omega)
      have hCast : (hundredths t.natAbs : ℚ) ≤ hundredths s.natAbs := by exact_mod_cast hGreater
      linarith
    · have hBelow : (0 : ℚ) ≤ hundredths s.natAbs := Nat.cast_nonneg _
      have hAbove : (0 : ℚ) ≤ hundredths t.natAbs := Nat.cast_nonneg _
      linarith
  · rw [if_neg (by omega)]
    have hGreater : hundredths s.natAbs ≤ hundredths t.natAbs := hundredths_mono (by omega)
    have hCast : (hundredths s.natAbs : ℚ) ≤ hundredths t.natAbs := by exact_mod_cast hGreater
    linarith

/-! ## Precision -/

/-- Hundredths are off by half a one from what is rounded to them. -/
theorem abs_hundredths_sub (n : Nat) :
    |(hundredths n : ℚ) / 100 - roundBits 53 n / 2 ^ 20| ≤ 0.005 := by
  obtain ⟨hUp, hDown⟩ := divNearest_bounds (n := roundBits 53 n * 100) (d := 0x100000) (by decide)
  have hUp' : 2 * ((roundBits 53 n : ℚ) * 100) ≤ (2 * hundredths n + 1) * 0x100000 := by
    exact_mod_cast hUp
  have hDown' : 2 * (hundredths n : ℚ) * 0x100000 ≤ 2 * (roundBits 53 n * 100) + 0x100000 := by
    exact_mod_cast hDown
  rw [abs_le]
  constructor <;> norm_num <;> linarith

/-- Below `2 ^ 63` the numbers with 53 binary digits are `2 ^ 10` apart at most. -/
theorem unitAt_le {n : Nat} (h : n < 2 ^ 63) : unitAt 53 n ≤ 2 ^ 10 := by
  have hLog : n.log2 < 63 := by
    rcases Nat.eq_zero_or_pos n with rfl | hPos
    · decide
    · exact (Nat.log2_lt (by omega)).2 h
  exact Nat.pow_le_pow_right (by decide) (by omega)

/-- A number of bytes that a 64-bit integer may count loses half of `2 ^ 10` at most. -/
theorem abs_roundBits_sub {n : Nat} (h : n ≤ 2 ^ 63) : |(roundBits 53 n : ℚ) - n| ≤ 2 ^ 9 := by
  rcases Nat.eq_or_lt_of_le h with rfl | hLess
  · have hKept : roundBits 53 (2 ^ 63) = 2 ^ 63 :=
      roundBits_of_dvd (Nat.pow_dvd_pow 2 (by rw [Nat.log2_two_pow]; decide))
    rw [hKept, sub_self, abs_zero]
    norm_num
  · have hUnit := unitAt_le hLess
    obtain ⟨hUp, hDown⟩ := roundBits_bounds 53 n
    have hUp' : (n : ℚ) ≤ roundBits 53 n + 2 ^ 9 := by
      exact_mod_cast (show n ≤ roundBits 53 n + 2 ^ 9 by omega)
    have hDown' : (roundBits 53 n : ℚ) ≤ n + 2 ^ 9 := by
      exact_mod_cast (show roundBits 53 n ≤ n + 2 ^ 9 by omega)
    rw [abs_le]
    constructor <;> linarith

/-- A size is shown as far off as its magnitude. -/
theorem abs_shownSize_sub (size : Int) :
    |shownSize size - size / 2 ^ 20| =
      |(hundredths size.natAbs : ℚ) / 100 - size.natAbs / 2 ^ 20| := by
  unfold shownSize
  split
  · next h =>
      have hSize : (size.natAbs : ℚ) = -size := by rw [Nat.cast_natAbs, abs_of_neg h, Int.cast_neg]
      rw [hSize, neg_div, sub_neg_eq_add, ← neg_add', abs_neg]
  · next h =>
      have hSize : (size.natAbs : ℚ) = size := by rw [Nat.cast_natAbs, abs_of_nonneg (by omega)]
      rw [hSize]

/-- Up to `2 ^ 53` only the hundredths are rounded. -/
theorem shownSize_near {size : Int} (h : |size| ≤ 2 ^ 53) :
    |shownSize size - size / 2 ^ 20| ≤ 0.005 := by
  have hKept : roundBits 53 size.natAbs = size.natAbs :=
    roundBits_of_le (by decide) (by rw [Int.abs_eq_natAbs] at h; omega)
  have hNear := abs_hundredths_sub size.natAbs
  rwa [hKept, ← abs_shownSize_sub] at hNear

theorem shownSize_near_of_int64 {size : Int} (h : size.natAbs ≤ 2 ^ 63) :
    |shownSize size - size / 2 ^ 20| ≤ 0.005 + 1 / 2 ^ 11 := by
  have hLost : |(roundBits 53 size.natAbs : ℚ) / 2 ^ 20 - size.natAbs / 2 ^ 20| ≤ 1 / 2 ^ 11 := by
    rw [← sub_div, abs_div, abs_of_pos (show (0 : ℚ) < 2 ^ 20 by norm_num),
      div_le_iff₀ (by norm_num)]
    exact (abs_roundBits_sub h).trans (by norm_num)
  rw [abs_shownSize_sub]
  exact (abs_sub_le _ _ _).trans (add_le_add (abs_hundredths_sub size.natAbs) hLost)

/-! ## Recordings -/

/-- A number that the cell of a recording's size shows. -/
def ShowsSize (r : Recording) (v : ℚ) : Prop :=
  ∃ cell, (recordingRow r)[2]? = some cell ∧ Shows cell v

theorem showsSize_iff {r : Recording} {v : ℚ} : ShowsSize r v ↔ v = shownSize r.size.toInt := by
  constructor
  · rintro ⟨cell, hCell, hShows⟩
    obtain rfl : sizeCell r.size.toInt = cell := Option.some.inj hCell
    exact shows_unique hShows (shows_sizeCell _)
  · rintro rfl
    exact ⟨_, rfl, shows_sizeCell _⟩

/-- **Sizes are shown accurately and in order.** The cell of every size is a decimal with two places. It is off
by half a hundredth at most up to `2 ^ 53` bytes, and by `1 / 2 ^ 11` more for any other size. A recording
of no smaller size is never shown with a smaller one. -/
theorem size_shown :
    (∀ r : Recording, ∃ v, ShowsSize r v ∧
      (|r.size.toInt| ≤ 2 ^ 53 → |v - r.size.toInt / 2 ^ 20| ≤ 0.005) ∧
      |v - r.size.toInt / 2 ^ 20| ≤ 0.005 + 1 / 2 ^ 11) ∧
    ∀ (r s : Recording) (v w : ℚ), r.size ≤ s.size → ShowsSize r v → ShowsSize s w → v ≤ w := by
  constructor
  · intro r
    have hLow := r.size.le_toInt
    have hHigh := r.size.toInt_lt
    exact ⟨_, showsSize_iff.2 rfl, shownSize_near, shownSize_near_of_int64 (by omega)⟩
  · intro r s v w hSizes hr hs
    rw [showsSize_iff.1 hr, showsSize_iff.1 hs]
    exact shownSize_mono (Int64.le_iff_toInt_le.1 hSizes)

/-- An eighth and three eighths of `2 ^ 20` bytes are halfway between hundredths, and go to the even ones. -/
theorem size_shown_halfway :
    let r : Recording := ⟨"eighth", .stream, 131072⟩
    let s : Recording := ⟨"three eighths", .batch, 393216⟩
    ShowsSize r 0.12 ∧ ShowsSize s 0.38 ∧ (0.12 : ℚ) ≤ 0.38 ∧
      ∃ v, ShowsSize r v ∧ |v - (131072 : Int) / 2 ^ 20| ≤ 0.005 := by
  intro r s
  have hEighth : hundredths 131072 = 12 := by decide
  have hThreeEighths : hundredths 393216 = 38 := by decide
  have hr : ShowsSize r 0.12 := by
    rw [showsSize_iff, show r.size.toInt = 131072 by decide]
    norm_num [shownSize, hEighth]
  have hs : ShowsSize s 0.38 := by
    rw [showsSize_iff, show s.size.toInt = 393216 by decide]
    norm_num [shownSize, hThreeEighths]
  obtain ⟨v, hShows, hNear, -⟩ := size_shown.1 r
  exact ⟨hr, hs, size_shown.2 r s _ _ (by decide) hr hs, v, hShows, hNear (by decide)⟩

end ControlClient.Listing
