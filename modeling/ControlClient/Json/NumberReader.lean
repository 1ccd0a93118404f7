import ControlClient.Json.Fault
import ControlClient.Json.Value

/-!
# Reading a JSON number

A number is read digit by digit. Its digits are gathered while they fit 64 bits; whole digits after
that only raise the exponent, and digits of a fraction after that are dropped. The digits and the
exponent then give a double, unless the number is an integer that fits.
-/

namespace ControlClient.Json

/-- Where in a number the reader stands. -/
inductive NumberPhase where
  /-- After the sign. -/
  | sign
  /-- After a leading zero. -/
  | zero
  /-- In the whole digits. -/
  | whole
  /-- In whole digits that are only counted. -/
  | long
  /-- After the point. -/
  | point
  /-- In the digits after the point. -/
  | fraction
  /-- In digits after the point that are dropped. -/
  | dropped
  /-- After the letter of the exponent. -/
  | mark
  /-- After the sign of the exponent. -/
  | marked (negative : Bool)
  /-- In the digits of the exponent. -/
  | power (negative : Bool) (value : Nat)
  /-- In the exponent of a number that is zero whatever follows. -/
  | vanished
deriving DecidableEq, Repr

/-- What is known of a number: its sign, the digits gathered and the power of ten they stand at. -/
structure NumberState where
  negative : Bool
  digits : Nat
  exponent : Int
  phase : NumberPhase
deriving DecidableEq, Repr

/-- What a byte does to a number. -/
inductive NumberStep where
  /-- It belongs to the number. -/
  | goes (s : NumberState)
  /-- It stands after the number. -/
  | ends
  /-- It cannot stand here. -/
  | fails (defect : Defect)

/-- The value of a byte that is a digit. -/
def digit? (byte : UInt8) : Option Nat :=
  if 48 ≤ byte.toNat ∧ byte.toNat ≤ 57 then some (byte.toNat - 48) else none

/-- Whether a byte is the letter of an exponent. -/
def isExponentMark (byte : UInt8) : Bool := byte = 101 || byte = 69

/-- Digits are gathered below this bound. -/
def digitsBound : Nat := 0x10000000000000000

/-- Exponents are read below this bound. -/
def powerBound : Nat := 0x80000000

namespace NumberState

/-- The state after a minus sign. -/
def afterSign : NumberState := ⟨true, 0, 0, .sign⟩

/-- The state after the first digit. -/
def afterDigit (negative : Bool) (digit : Nat) : NumberState :=
  ⟨negative, digit, 0, if digit = 0 then .zero else .whole⟩

/-- A byte that is no digit, after digits that may end the number: a point, where one may follow, or
the letter of the exponent. -/
def pointOrMark (s : NumberState) (pointAllowed : Bool) (byte : UInt8) : NumberStep :=
  if pointAllowed && byte = 46 then .goes { s with phase := .point }
  else if isExponentMark byte then .goes { s with phase := .mark }
  else .ends

/-- A digit after the point. -/
def fractionDigit (s : NumberState) (d : Nat) : NumberState :=
  if s.digits * 10 + d < digitsBound then
    { s with digits := s.digits * 10 + d, exponent := s.exponent - 1, phase := .fraction }
  else { s with phase := .dropped }

/-- One byte. -/
def step (s : NumberState) (byte : UInt8) : NumberStep :=
  match s.phase, digit? byte with
  | .sign, some d => .goes (afterDigit s.negative d)
  | .sign, none => .fails .invalidNumber
  | .zero, some _ => .fails .invalidNumber
  | .zero, none => s.pointOrMark true byte
  | .whole, some d =>
      if s.digits * 10 + d < digitsBound then .goes { s with digits := s.digits * 10 + d }
      else .goes { s with exponent := 1, phase := .long }
  | .whole, none => s.pointOrMark true byte
  | .long, some _ => .goes { s with exponent := s.exponent + 1 }
  | .long, none => s.pointOrMark true byte
  | .point, some d => .goes (s.fractionDigit d)
  | .point, none => .fails .invalidNumber
  | .fraction, some d => .goes (s.fractionDigit d)
  | .fraction, none => s.pointOrMark false byte
  | .dropped, some _ => .goes s
  | .dropped, none => s.pointOrMark false byte
  | .mark, some d => .goes { s with phase := .power false d }
  | .mark, none =>
      if byte = 43 then .goes { s with phase := .marked false }
      else if byte = 45 then .goes { s with phase := .marked true }
      else .fails .invalidNumber
  | .marked negative, some d => .goes { s with phase := .power negative d }
  | .marked _, none => .fails .invalidNumber
  | .power negative value, some d =>
      if value * 10 + d < powerBound then .goes { s with phase := .power negative (value * 10 + d) }
      else if s.digits ≠ 0 ∧ negative = false then .fails .numberOutOfRange
      else .goes { s with phase := .vanished }
  | .power _ _, none => .ends
  | .vanished, some _ => .goes s
  | .vanished, none => .ends

/-- The number as a double. -/
def fractional (s : NumberState) (exponent : Int) : Except Defect Value :=
  match Number.Binary64.ofDecimal? s.digits exponent with
  | some x => .ok (.fractional ⟨s.negative, x⟩)
  | none => .error .numberOutOfRange

/-- The number, if it may end here. Integers from `-2 ^ 63` to `2 ^ 64 - 1` are kept, but a negative
zero is a double. -/
def value (s : NumberState) : Except Defect Value :=
  match s.phase with
  | .zero | .whole =>
      if s.negative = false then .ok (.integer s.digits)
      else if s.digits ≠ 0 ∧ s.digits ≤ 0x8000000000000000 then .ok (.integer (-(s.digits : Int)))
      else s.fractional 0
  | .long | .fraction | .dropped => s.fractional s.exponent
  | .power false value => s.fractional (s.exponent + value)
  | .power true value => s.fractional (s.exponent - value)
  | .vanished => .ok (.fractional ⟨s.negative, Number.Binary64.zero⟩)
  | .sign | .point | .mark | .marked _ => .error .endInValue

end NumberState

end ControlClient.Json
