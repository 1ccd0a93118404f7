import ControlClient.Number.Rounding
import ControlClient.Text.Digits

/-!
# Doubles

A finite double that is not negative is `significand * 2 ^ exponent` with at most 53 binary digits
and an exponent from -1074 to 971. Arithmetic is exact and then rounded once, to nearest with halves
to even; a result beyond the greatest double is none.

The shortest decimal of a double is the one with the fewest digits that rounds to it, and of those the
nearest. It is found by trying one digit, two digits, and so on: if any decimal with `n` digits rounds
to the double, one of the two that enclose it does.
-/

namespace ControlClient.Number

/-- A finite double that is not negative. -/
structure Binary64 where
  significand : Nat
  exponent : Int
deriving DecidableEq, Repr

namespace Binary64

/-- Significands are below this bound, `2 ^ 53`. -/
def significandBound : Nat := 0x20000000000000

/-- The double zero. -/
def zero : Binary64 := ⟨0, -1074⟩

/-- `n * 2 ^ e / d` as a quotient of natural numbers. -/
def scaled (n d : Nat) (e : Int) : Nat × Nat :=
  if e < 0 then (n, d * Nat.pow 2 e.natAbs) else (n * Nat.pow 2 e.natAbs, d)

/-- The exponent of the double next to `n / d`, apart from a carry while rounding. -/
def exponentFor (n d : Nat) : Int :=
  let guess := max ((n.log2 : Int) - d.log2 - 53) (-1074)
  let quotient := scaled n d (-guess)
  if quotient.1 / quotient.2 < significandBound then guess else guess + 1

/-- The double nearest to `n / d`, or none if that is beyond the greatest double. -/
def round (n d : Nat) : Option Binary64 :=
  if n = 0 then some zero
  else
    let e := exponentFor n d
    let quotient := scaled n d (-e)
    let m := divNearest quotient.1 quotient.2
    let x : Binary64 := if m < significandBound then ⟨m, e⟩ else ⟨significandBound / 2, e + 1⟩
    if x.exponent ≤ 971 then some x else none

/-- The double nearest to a natural number. -/
def ofNat? (n : Nat) : Option Binary64 := round n 1

/-- The double nearest to a power of ten. -/
def powerOfTen? (k : Nat) : Option Binary64 := round (Nat.pow 10 k) 1

/-- The rounded product. -/
def mul? (x y : Binary64) : Option Binary64 :=
  let product := scaled (x.significand * y.significand) 1 (x.exponent + y.exponent)
  round product.1 product.2

/-- The rounded quotient by a double that is not zero. -/
def div? (x y : Binary64) : Option Binary64 :=
  let quotient := scaled x.significand y.significand (x.exponent - y.exponent)
  round quotient.1 quotient.2

/-! ## Reading a decimal

A decimal is read in two roundings: its digits become a double, which is then multiplied or divided
by the double of the power of ten. Powers beyond the greatest, 308, are taken in steps. -/

/-- The greatest power of ten that is a double. -/
def maxPowerOfTen : Nat := 308

/-- Divide so many times by the greatest power of ten; nothing is left of zero to divide. -/
def divGreatest : Nat → Binary64 → Option Binary64
  | 0, x => some x
  | steps + 1, x =>
      if x.significand = 0 then some x
      else ((powerOfTen? maxPowerOfTen).bind x.div?).bind (divGreatest steps)

/-- `x / 10 ^ k`, in steps of at most `maxPowerOfTen`. -/
def divPowerOfTen (x : Binary64) (k : Nat) : Option Binary64 :=
  let steps := (k - 1) / maxPowerOfTen
  (divGreatest steps x).bind fun y => (powerOfTen? (k - steps * maxPowerOfTen)).bind y.div?

/-- `digits * 10 ^ exponent`, or none if that is beyond the greatest double. -/
def ofDecimal? (digits : Nat) (exponent : Int) : Option Binary64 := do
  let x ← ofNat? digits
  if exponent < 0 then divPowerOfTen x exponent.natAbs
  else if exponent.natAbs ≤ maxPowerOfTen then (powerOfTen? exponent.natAbs).bind x.mul?
  else if x.significand = 0 then some x
  else none

/-! ## Shortest decimals -/

/-- A decimal `digits * 10 ^ exponent`. -/
structure Decimal where
  digits : Nat
  exponent : Int
deriving DecidableEq, Repr

/-- `10 ^ p` is the least power of ten above the quotient `n / d`, which is not zero. -/
def decimalPoint (n d : Nat) : Int :=
  if d ≤ n then (Text.digits (n / d)).length else 1 - ((Text.digits (d / n)).length : Int)

/-- `n / d` in units of `10 ^ k`, as a quotient. -/
def perUnit (n d : Nat) (k : Int) : Nat × Nat :=
  if k < 0 then (n * Nat.pow 10 k.natAbs, d) else (n, d * Nat.pow 10 k.natAbs)

/-- The decimal with `places` digits that rounds to `x` and is nearest to it, if there is one. The
doubles next to `x` lie `below` and `2` quarters of its last digit away at least. -/
def decimalOf (x : Binary64) (places : Nat) : Option Decimal :=
  let below := if x.significand = significandBound / 2 ∧ -1074 < x.exponent then 1 else 2
  let value := scaled (4 * x.significand) 1 (x.exponent - 2)
  let unitExponent := decimalPoint value.1 value.2 - (places : Int)
  let quotient := perUnit value.1 value.2 unitExponent
  -- One quarter of the last binary digit, in the same units.
  let quarter := perUnit (value.1 / (4 * x.significand)) value.2 unitExponent
  let floor := quotient.1 / quotient.2
  -- Whether a multiple of the unit rounds to `x`.
  let rounds (k : Nat) : Bool :=
    let lowest := quotient.1 - below * quarter.1
    let highest := quotient.1 + 2 * quarter.1
    if x.significand % 2 = 0 then
      lowest ≤ k * quotient.2 && k * quotient.2 ≤ highest
    else
      lowest < k * quotient.2 && k * quotient.2 < highest
  let nearest := divNearest quotient.1 quotient.2
  let other := if nearest = floor then floor + 1 else floor
  if rounds nearest then some ⟨nearest, unitExponent⟩
  else if rounds other then some ⟨other, unitExponent⟩
  else none

/-- The shortest decimal that rounds to a double. Seventeen digits always do. -/
def shortest (x : Binary64) : Decimal :=
  if x.significand = 0 then ⟨0, 0⟩
  else ((List.range 17).findSome? fun i => x.decimalOf (i + 1)).getD ⟨0, 0⟩

/-- Drop the zeros at the end of a run of digits, but not the first digit. -/
def significantDigits (n : Nat) : List Char :=
  match Text.digits n with
  | [] => []
  | d :: ds => d :: (ds.reverse.dropWhile (· == '0')).reverse

/-- A double as text. Numbers from `10 ^ -4` up to `10 ^ 16` are written with a point and at least
one digit after it; others with an exponent of at least two digits and its sign. -/
def text (x : Binary64) : String :=
  let decimal := x.shortest
  let ds := significantDigits decimal.digits
  let order : Int := (Text.digits decimal.digits).length - 1 + decimal.exponent
  String.ofList <|
    if x.significand = 0 then ['0', '.', '0']
    else if -4 ≤ order ∧ order < 0 then
      ['0', '.'] ++ List.replicate (order.natAbs - 1) '0' ++ ds
    else if 0 ≤ order ∧ order < 16 then
      let whole := order.natAbs + 1
      let padded := ds ++ List.replicate (whole - ds.length) '0'
      let fraction := padded.drop whole
      padded.take whole ++ '.' :: (if fraction.isEmpty then ['0'] else fraction)
    else
      ds.take 1 ++ (if ds.length = 1 then [] else '.' :: ds.drop 1) ++
        'e' :: (if order < 0 then '-' else '+') :: Text.digitsPadded 2 order.natAbs

end Binary64

end ControlClient.Number
