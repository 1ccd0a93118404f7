import ControlClient.Span.Basic
import ControlClient.Text.Blank
import ControlClient.Text.Digits

/-!
# Reading a span

A span is written as segments such as `2h45m10.5s`, each a number and a unit, or as a bare `0`;
blanks around the whole are ignored.

Any text splits into segments, whether it is a span or not: a segment is a run of digits, an
optional point with another run, and then everything up to the next digit or point. So reading is a
fold over the segments in which each one is either worth a number of nanoseconds or at fault, and
the first fault wins.

Sums and products are kept below a bound. Where they would reach it, the text is at fault, with one
exception: nothing checks the sum of a product and a fraction, and where that reaches the bound, the
program breaks off. This is no fault of the text, but an outcome of its own.

## Main results

* `Segment.text_scan`: the first segment of a text and what follows it are the whole text.
* `Segment.scan_length`: a segment of a text that is not empty takes at least one character.
-/

namespace ControlClient

/-- Why a text is not a span. -/
inductive SpanFault where
  /-- There is nothing but blanks. -/
  | empty
  /-- A segment has no digits, or the span is too long. -/
  | malformed
  /-- A number stands without a unit. -/
  | missingUnit
  /-- No unit goes by this name. -/
  | unknownUnit (name : String)
deriving DecidableEq, Repr

/-- What is wrong with `input`, which is quoted as it was given. -/
def SpanFault.message (input : String) : SpanFault → String
  | empty => "empty duration"
  | malformed => "invalid duration '" ++ input ++ "'"
  | missingUnit => "missing unit in duration '" ++ input ++ "'"
  | unknownUnit name => "unknown unit '" ++ name ++ "' in duration '" ++ input ++ "'"

namespace Span

/-- Why reading ends without a span. -/
inductive Halt where
  /-- The text is at fault. -/
  | fault (f : SpanFault)
  /-- A sum that is not checked reaches the accumulator's bound, and the program breaks off. -/
  | overflow
deriving DecidableEq, Repr

/-! ## Segments -/

/-- One number and its unit, as written. -/
structure Segment where
  /-- The digits before the point. -/
  whole : List Char
  /-- The digits after the point, if there is a point. -/
  fraction? : Option (List Char)
  /-- Everything up to the next digit or point. -/
  unit : List Char
deriving DecidableEq, Repr

/-- Whether a character ends a unit: a unit runs up to the next digit or point. -/
def startsNumber (c : Char) : Bool := c.isDigit || c == '.'

/-- Split the fraction off a text that follows the whole digits. -/
def splitFraction : List Char → Option (List Char) × List Char
  | '.' :: rest => (some (rest.takeWhile Char.isDigit), rest.dropWhile Char.isDigit)
  | rest => (none, rest)

/-- Split the first segment off a text. -/
def Segment.scan (cs : List Char) : Segment × List Char :=
  let afterWhole := splitFraction (cs.dropWhile Char.isDigit)
  ({ whole := cs.takeWhile Char.isDigit
     fraction? := afterWhole.1
     unit := afterWhole.2.takeWhile (!startsNumber ·) },
    afterWhole.2.dropWhile (!startsNumber ·))

/-- The text of a fraction: a point and its digits, or nothing. -/
def fractionText : Option (List Char) → List Char
  | some digits => '.' :: digits
  | none => []

/-- The text of a segment. -/
def Segment.text (s : Segment) : List Char := s.whole ++ fractionText s.fraction? ++ s.unit

private theorem splitFraction_text (cs : List Char) :
    fractionText (splitFraction cs).1 ++ (splitFraction cs).2 = cs := by
  unfold splitFraction
  split
  · simp [fractionText]
  · simp [fractionText]

/-- A segment and what follows it are the whole text. -/
theorem Segment.text_scan (cs : List Char) :
    (Segment.scan cs).1.text ++ (Segment.scan cs).2 = cs := by
  simp only [Segment.scan, Segment.text, List.append_assoc, List.takeWhile_append_dropWhile,
    splitFraction_text]

private theorem length_dropWhile_le {p : Char → Bool} (cs : List Char) :
    (cs.dropWhile p).length ≤ cs.length := (List.dropWhile_sublist p).length_le

private theorem splitFraction_length (cs : List Char) :
    (splitFraction cs).2.length ≤ cs.length := by
  unfold splitFraction
  split
  · next rest => simpa using Nat.le_succ_of_le (length_dropWhile_le rest)
  · exact Nat.le_refl _

/-- A segment of a text that is not empty takes at least one character. -/
theorem Segment.scan_length {c : Char} {cs : List Char} :
    (Segment.scan (c :: cs)).2.length < (c :: cs).length := by
  by_cases hDigit : c.isDigit = true
  · have hDrop : ((c :: cs).dropWhile Char.isDigit) = cs.dropWhile Char.isDigit := by
      simp [hDigit]
    have h₁ := length_dropWhile_le (p := (!startsNumber ·)) (splitFraction (cs.dropWhile Char.isDigit)).2
    have h₂ := splitFraction_length (cs.dropWhile Char.isDigit)
    have h₃ := length_dropWhile_le (p := Char.isDigit) cs
    simp only [Segment.scan, hDrop, List.length_cons]
    omega
  · have hDrop : ((c :: cs).dropWhile Char.isDigit) = c :: cs := by
      simp [hDigit]
    by_cases hPoint : c = '.'
    · subst hPoint
      have h₁ := length_dropWhile_le (p := (!startsNumber ·)) (cs.dropWhile Char.isDigit)
      have h₂ := length_dropWhile_le (p := Char.isDigit) cs
      simp only [Segment.scan, hDrop, splitFraction, List.length_cons]
      omega
    · have hSplit : splitFraction (c :: cs) = (none, c :: cs) := by
        unfold splitFraction
        split
        · next h => simp_all
        · rfl
      have hUnit : (!startsNumber c) = true := by simp [startsNumber, hDigit, hPoint]
      have h₁ := length_dropWhile_le (p := (!startsNumber ·)) cs
      simp only [Segment.scan, hDrop, hSplit, List.dropWhile_cons, hUnit, if_true,
        List.length_cons]
      omega

/-- The segments of a text, in order. -/
def segments : List Char → List Segment
  | [] => []
  | c :: cs => (Segment.scan (c :: cs)).1 :: segments (Segment.scan (c :: cs)).2
termination_by cs => cs.length
decreasing_by exact Segment.scan_length

/-! ## Their worth -/

/-- Sums and products are kept below this bound, `2 ^ 128`, while a span is read. -/
def accumulatorBound : Nat := 0x100000000000000000000000000000000

/-- Digits of a fraction that are read; those after them are dropped. -/
def fractionDigits : Nat := 18

/-- A number that is below the accumulator's bound; beyond it, reading halts. -/
def bounded (beyond : Halt) (n : Nat) : Except Halt Nat :=
  if n < accumulatorBound then .ok n else .error beyond

/-- Nanoseconds that the digits of a fraction are worth in a unit. -/
def fractionNanos (u : TimeUnit) (digits : List Char) : Nat :=
  Text.ofDigits (digits.take fractionDigits) * u.nanos / Nat.pow 10 (digits.take fractionDigits).length

/-- Nanoseconds that a segment is worth. The fraction joins the product without a check. -/
def Segment.nanos (s : Segment) : Except Halt Nat :=
  let fraction := s.fraction?.getD []
  if s.whole.isEmpty && fraction.isEmpty then
    .error (.fault .malformed)
  else
    match TimeUnit.ofName? s.unit with
    | none =>
        .error (.fault (if s.unit.isEmpty then .missingUnit else .unknownUnit (String.ofList s.unit)))
    | some u => do
        let whole ← bounded (.fault .malformed) (Text.ofDigits s.whole)
        let product ← bounded (.fault .malformed) (whole * u.nanos)
        bounded .overflow (product + fractionNanos u fraction)

/-- The sum of segments in front of which so many nanoseconds have been read. -/
def sumFrom (total : Nat) : List Segment → Except Halt Nat
  | [] => .ok total
  | s :: rest => do
      let nanos ← s.nanos
      let total ← bounded (.fault .malformed) (total + nanos)
      sumFrom total rest

/-- The span that a text without blanks around it denotes. -/
def readTrimmed (cs : List Char) : Except Halt Span :=
  if cs = ['0'] then .ok zero
  else if cs.isEmpty then .error (.fault .empty)
  else do
    let total ← sumFrom 0 (segments cs)
    match ofNanos? total with
    | some d => return d
    | none => .error (.fault .malformed)

/-- The span that a text denotes, blanks around it ignored. -/
def read (input : String) : Except Halt Span := readTrimmed (Text.trim input.toList)

end Span

end ControlClient
