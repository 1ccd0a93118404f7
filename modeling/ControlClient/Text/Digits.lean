/-!
# Decimal digits

Reading and writing natural numbers in decimal. `ofDigits` reads any run of ASCII digits, leading
zeros included; `digits` writes the shortest one, and `digitsPadded` one of a given width.

## Main results

* `ofDigits_digits`: what is written reads back.
* `isDigit_of_mem_digits`: only ASCII digits are written.
-/

namespace ControlClient.Text

/-- The number that a run of decimal digits denotes; the empty run denotes zero. -/
def ofDigits (cs : List Char) : Nat := Nat.ofDigitChars 10 cs 0

/-- The decimal digits of a number, without leading zeros; zero is a single `0`. -/
def digits (n : Nat) : List Char := Nat.toDigits 10 n

/-- The decimal digits of a number, with zeros in front up to the given width. -/
def digitsPadded (width n : Nat) : List Char :=
  List.replicate (width - (digits n).length) '0' ++ digits n

/-- The decimal digits of a number as text. -/
def digitText (n : Nat) : String := String.ofList (digits n)

/-- An integer in decimal, with a minus sign in front of a negative one. -/
def intText (n : Int) : String :=
  if n < 0 then "-" ++ digitText n.natAbs else digitText n.natAbs

theorem ofDigits_digits (n : Nat) : ofDigits (digits n) = n :=
  Nat.ofDigitChars_toDigits (by decide) (by decide)

theorem isDigit_of_mem_digits {n : Nat} {c : Char} (hc : c ∈ digits n) : c.isDigit = true :=
  Nat.isDigit_of_mem_toDigits (by decide) (by decide) hc

theorem digits_ne_nil (n : Nat) : digits n ≠ [] := Nat.toDigits_ne_nil

end ControlClient.Text
