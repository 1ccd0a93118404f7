import ControlClient.Text.Digits

/-!
# 64-bit integers in decimal

A 64-bit integer is written as an optional sign and decimal digits. Digits are taken from the left,
and the first character that is no digit, or that takes the number beyond its range, is reported.

## Main results

* `Int64Fault.message` gives each fault its text.
-/

namespace ControlClient.Number

/-- The integer of a word, if it is within the word's range. -/
def int64? (n : Int) : Option Int64 :=
  if -0x8000000000000000 ≤ n ∧ n < 0x8000000000000000 then some (Int64.ofInt n) else none

/-- Why a text is not a 64-bit integer. -/
inductive Int64Fault where
  | empty
  | notADigit
  | tooLarge
  | tooSmall
deriving DecidableEq, Repr

/-- What is wrong with a text. -/
def Int64Fault.message : Int64Fault → String
  | empty => "cannot parse integer from empty string"
  | notADigit => "invalid digit found in string"
  | tooLarge => "number too large to fit in target type"
  | tooSmall => "number too small to fit in target type"

/-- The number of digits that follow others, up to a limit. -/
def readUpTo (limit : Nat) (beyond : Int64Fault) (n : Nat) : List Char → Except Int64Fault Nat
  | [] => .ok n
  | c :: rest =>
      if !c.isDigit then .error .notADigit
      else
        let n := n * 10 + (c.toNat - 48)
        if limit < n then .error beyond else readUpTo limit beyond n rest

/-- The 64-bit integer of a text. -/
def readInt64 (cs : List Char) : Except Int64Fault Int64 :=
  match cs with
  | [] => .error .empty
  | ['+'] | ['-'] => .error .notADigit
  | '+' :: digits => (readUpTo 0x7FFFFFFFFFFFFFFF .tooLarge 0 digits).map (Int64.ofInt ·)
  | '-' :: digits => (readUpTo 0x8000000000000000 .tooSmall 0 digits).map fun n => Int64.ofInt (-n)
  | digits => (readUpTo 0x7FFFFFFFFFFFFFFF .tooLarge 0 digits).map (Int64.ofInt ·)

end ControlClient.Number
