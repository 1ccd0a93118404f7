/-!
# Time spans

A span is a whole number of nanoseconds whose seconds fit 64 bits, and a unit of time is a length
in nanoseconds with the names it is written by.

The bound lives in the type: every function that yields a `Span` has checked it.
-/

namespace ControlClient

/-- Nanoseconds in a second. -/
def nanosPerSecond : Nat := 1000000000

/-- Seconds of a span are below `2 ^ 64`. -/
def secondsBound : Nat := 0x10000000000000000

/-- A length of time in nanoseconds, below `2 ^ 64` seconds. -/
structure Span where
  /-- The whole span, in nanoseconds. -/
  nanos : Nat
  nanos_lt : nanos < secondsBound * nanosPerSecond
deriving DecidableEq

namespace Span

/-- The span of no length. -/
def zero : Span := ⟨0, by decide⟩

instance : Inhabited Span := ⟨zero⟩

/-- Whole seconds of a span. -/
def seconds (d : Span) : Nat := d.nanos / nanosPerSecond

/-- Nanoseconds of a span beyond its whole seconds. -/
def subseconds (d : Span) : Nat := d.nanos % nanosPerSecond

/-- The span of so many nanoseconds, if it is one. -/
def ofNanos? (n : Nat) : Option Span :=
  if h : n < secondsBound * nanosPerSecond then some ⟨n, h⟩ else none

/-- The span of so many seconds and nanoseconds, if it is one. -/
def ofParts? (seconds nanos : Nat) : Option Span := ofNanos? (seconds * nanosPerSecond + nanos)

@[ext] theorem ext {d e : Span} (h : d.nanos = e.nanos) : d = e := by
  cases d; cases e; simp_all

theorem ofNanos?_nanos (d : Span) : ofNanos? d.nanos = some d := by
  unfold ofNanos?
  rw [dif_pos d.nanos_lt]

theorem seconds_lt (d : Span) : d.seconds < secondsBound :=
  Nat.div_lt_of_lt_mul (Nat.mul_comm _ _ ▸ d.nanos_lt)

theorem subseconds_lt (d : Span) : d.subseconds < nanosPerSecond :=
  Nat.mod_lt _ (by decide)

end Span

/-! ## Units of time -/

/-- The units a span is written in. -/
inductive TimeUnit where
  | nanosecond
  | microsecond
  | millisecond
  | second
  | minute
  | hour
deriving DecidableEq, Repr

namespace TimeUnit

/-- Length of a unit in nanoseconds. -/
def nanos : TimeUnit → Nat
  | nanosecond => 1
  | microsecond => 1000
  | millisecond => 1000000
  | second => nanosPerSecond
  | minute => 60 * nanosPerSecond
  | hour => 3600 * nanosPerSecond

/-- The name a unit is written by; microseconds take the micro sign, U+00B5. -/
def symbol : TimeUnit → List Char
  | nanosecond => ['n', 's']
  | microsecond => ['\u00b5', 's']
  | millisecond => ['m', 's']
  | second => ['s']
  | minute => ['m']
  | hour => ['h']

/-- The unit of a name. Microseconds may also be spelled with a plain `u` or the Greek letter
U+03BC. -/
def ofName? (name : List Char) : Option TimeUnit :=
  if name = ['n', 's'] then some nanosecond
  else if name = ['u', 's'] ∨ name = ['\u00b5', 's'] ∨ name = ['\u03bc', 's'] then
    some microsecond
  else if name = ['m', 's'] then some millisecond
  else if name = ['s'] then some second
  else if name = ['m'] then some minute
  else if name = ['h'] then some hour
  else none

theorem ofName?_symbol (u : TimeUnit) : ofName? u.symbol = some u := by
  cases u <;> rfl

end TimeUnit

end ControlClient
