import ControlClient.Span.Basic
import ControlClient.Text.Digits

/-!
# Writing a span

Every span has one canonical notation: `0s`; a decimal of nanoseconds, microseconds or milliseconds
below a second; and from a second on hours, minutes and a decimal of seconds, in which minutes stand
whenever hours do. Decimals carry no zeros at their end.
-/

namespace ControlClient.Span

/-- Drop the zeros at the end of a run of digits. -/
def dropTrailingZeros (cs : List Char) : List Char := (cs.reverse.dropWhile (· == '0')).reverse

/-- `value / 10 ^ places` as a decimal without zeros at its end. -/
def decimal (places value : Nat) : List Char :=
  let scale := Nat.pow 10 places
  if value % scale = 0 then Text.digits (value / scale)
  else Text.digits (value / scale) ++
    '.' :: dropTrailingZeros (Text.digitsPadded places (value % scale))

/-- Notation of fewer nanoseconds than a second has. -/
def belowSecond (nanos : Nat) : List Char :=
  if nanos < 1000 then decimal 0 nanos ++ TimeUnit.nanosecond.symbol
  else if nanos < 1000000 then decimal 3 nanos ++ TimeUnit.microsecond.symbol
  else decimal 6 nanos ++ TimeUnit.millisecond.symbol

/-- Notation of a second or more: hours and minutes where there are any, then seconds. -/
def fromSecond (d : Span) : List Char :=
  let hours := d.seconds / 3600
  let minutes := d.seconds % 3600 / 60
  let rest := d.seconds % 60 * nanosPerSecond + d.subseconds
  (if hours = 0 then [] else Text.digits hours ++ TimeUnit.hour.symbol) ++
    (if hours = 0 ∧ minutes = 0 then [] else Text.digits minutes ++ TimeUnit.minute.symbol) ++
    decimal 9 rest ++ TimeUnit.second.symbol

/-- The canonical notation of a span, as characters. -/
def written (d : Span) : List Char :=
  if d.nanos = 0 then ['0', 's']
  else if d.nanos < nanosPerSecond then belowSecond d.nanos
  else d.fromSecond

/-- The canonical notation of a span. -/
def text (d : Span) : String := String.ofList d.written

end ControlClient.Span
