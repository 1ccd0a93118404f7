import ControlClient.Json.Fault
import ControlClient.Text.Utf8

/-!
# Reading a JSON string

A string is read byte by byte up to its closing quote. Bytes that are not UTF-8 are noticed but
reported only there, so that any other defect of the string is reported instead; the report names
the first byte of the sequence at fault.
-/

namespace ControlClient.Json

open Text (Utf8.Unfinished)

/-- Where in a string the reader stands. -/
inductive StringPhase where
  /-- Between escapes. -/
  | plain
  /-- After a backslash. -/
  | escape
  /-- In a group of four hexadecimal digits, of which so many are to come. The value is none once a
  byte was no digit. A high surrogate may stand before the group. -/
  | group (high? : Option Nat) (value? : Option Nat) (toCome : Nat)
  /-- After a high surrogate. -/
  | surrogate (high : Nat)
  /-- After a high surrogate and a backslash. -/
  | surrogateEscape (high : Nat)
deriving DecidableEq, Repr

/-- What is known of a string. -/
structure StringState where
  /-- Characters read, latest first. -/
  chars : List Char
  /-- A character some of whose bytes were read, and where it starts. -/
  unfinished? : Option (Nat × Utf8.Unfinished)
  /-- Where the first sequence starts that is not UTF-8. -/
  broken? : Option Nat
  phase : StringPhase
deriving DecidableEq, Repr

/-- What a byte does to a string. -/
inductive StringStep where
  /-- The string goes on. -/
  | goes (s : StringState)
  /-- The string ends with this text. -/
  | ends (text : String)
  /-- Something is wrong. -/
  | fails (fault : Fault)

/-- The value of a byte that is a hexadecimal digit. -/
def hexValue? (byte : UInt8) : Option Nat :=
  let b := byte.toNat
  if 48 ≤ b ∧ b ≤ 57 then some (b - 48)
  else if 97 ≤ b ∧ b ≤ 102 then some (b - 87)
  else if 65 ≤ b ∧ b ≤ 70 then some (b - 55)
  else none

/-- The character that a letter after a backslash stands for. -/
def escapedChar? (byte : UInt8) : Option Char :=
  match Char.ofNat byte.toNat with
  | '"' => some '"'
  | '\\' => some '\\'
  | '/' => some '/'
  | 'b' => some '\x08'
  | 'f' => some '\x0c'
  | 'n' => some '\n'
  | 'r' => some '\r'
  | 't' => some '\t'
  | _ => none

namespace StringState

/-- The state after the opening quote. -/
def start : StringState := ⟨[], none, none, .plain⟩

/-- Note where a sequence starts that is not UTF-8; the first one counts. -/
def breakAt (s : StringState) (place : Nat) : StringState :=
  { s with broken? := s.broken?.or (some place), unfinished? := none }

/-- No more bytes come for an unfinished character. -/
def settle (s : StringState) : StringState :=
  match s.unfinished? with
  | none => s
  | some (place, _) => s.breakAt place

/-- Add a character. -/
def push (s : StringState) (c : Char) : StringState :=
  { s with chars := c :: s.chars, unfinished? := none, phase := .plain }

/-- A byte where a character may start. -/
def firstByte (s : StringState) (taken : Nat) (byte : UInt8) : StringState :=
  match Text.Utf8.first byte with
  | .ends c => s.push c
  | .leaves u => { s with unfinished? := some (taken, u) }
  | .refuses => s.breakAt taken

/-- A byte of a character. -/
def textByte (s : StringState) (taken : Nat) (byte : UInt8) : StringState :=
  match s.unfinished? with
  | none => s.firstByte taken byte
  | some (place, u) =>
      match u.next byte with
      | .ends c => s.push c
      | .leaves u => { s with unfinished? := some (place, u) }
      | .refuses => (s.breakAt place).firstByte taken byte

/-- The closing quote. -/
def close (s : StringState) : StringStep :=
  match s.settle.broken? with
  | some place => .fails ⟨.invalidText, place + 1⟩
  | none => .ends (String.ofList s.chars.reverse)

/-- A group of hexadecimal digits is complete. -/
def endGroup (s : StringState) (taken : Nat) (high? value? : Option Nat) : StringStep :=
  match high?, value? with
  | _, none => .fails ⟨.invalidEscape, taken + 1⟩
  | none, some n =>
      if 0xDC00 ≤ n ∧ n ≤ 0xDFFF then .fails ⟨.loneSurrogate, taken + 1⟩
      else if 0xD800 ≤ n ∧ n ≤ 0xDBFF then .goes { s with phase := .surrogate n }
      else .goes (s.push (Char.ofNat n))
  | some high, some n =>
      if 0xDC00 ≤ n ∧ n ≤ 0xDFFF then
        .goes (s.push (Char.ofNat (0x10000 + (high - 0xD800) * 0x400 + (n - 0xDC00))))
      else .fails ⟨.loneSurrogate, taken + 1⟩

/-- One byte, in front of which so many were taken. -/
def step (s : StringState) (taken : Nat) (byte : UInt8) : StringStep :=
  match s.phase with
  | .plain =>
      if byte = 34 then s.close
      else if byte = 92 then .goes { s.settle with phase := .escape }
      else if byte.toNat < 0x20 then .fails ⟨.controlCharacter, taken + 1⟩
      else .goes (s.textByte taken byte)
  | .escape =>
      if byte = 117 then .goes { s with phase := .group none (some 0) 4 }
      else
        match escapedChar? byte with
        | some c => .goes (s.push c)
        | none => .fails ⟨.invalidEscape, taken + 1⟩
  | .group high? value? toCome =>
      let value? := value?.bind fun v => (hexValue? byte).map (v * 16 + ·)
      if toCome ≤ 1 then s.endGroup taken high? value?
      else .goes { s with phase := .group high? value? (toCome - 1) }
  | .surrogate high =>
      if byte = 92 then .goes { s with phase := .surrogateEscape high }
      else .fails ⟨.unfinishedSurrogate, taken + 1⟩
  | .surrogateEscape high =>
      if byte = 117 then .goes { s with phase := .group (some high) (some 0) 4 }
      else .fails ⟨.unfinishedSurrogate, taken + 1⟩

end StringState

end ControlClient.Json
