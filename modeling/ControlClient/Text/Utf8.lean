/-!
# UTF-8

Characters as bytes and back. Reading goes byte by byte: between bytes either nothing is owed, or a
character is unfinished and the next byte must lie in a known range. The ranges are narrower after
`E0`, `ED`, `F0` and `F4`, which is how overlong forms, surrogates and code points beyond U+10FFFF
are refused at the first byte that rules them out.

Two readers share the steps. `decode?` wants UTF-8 throughout; `decodeLossy` puts U+FFFD for each
longest run of bytes that starts a character and cannot be finished.
-/

namespace ControlClient.Text.Utf8

/-! ## Writing -/

/-- The bytes of a character. -/
def encodeChar (c : Char) : List UInt8 :=
  let n := c.toNat
  if n < 0x80 then [UInt8.ofNat n]
  else if n < 0x800 then [UInt8.ofNat (0xC0 + n / 64), UInt8.ofNat (0x80 + n % 64)]
  else if n < 0x10000 then
    [UInt8.ofNat (0xE0 + n / 4096), UInt8.ofNat (0x80 + n / 64 % 64), UInt8.ofNat (0x80 + n % 64)]
  else
    [UInt8.ofNat (0xF0 + n / 262144), UInt8.ofNat (0x80 + n / 4096 % 64),
      UInt8.ofNat (0x80 + n / 64 % 64), UInt8.ofNat (0x80 + n % 64)]

/-- The bytes of a run of characters. -/
def encode (cs : List Char) : List UInt8 := cs.flatMap encodeChar

/-- The bytes of a text. -/
def bytes (s : String) : List UInt8 := encode s.toList

/-! ## One byte at a time -/

/-- A character some of whose bytes have been read. -/
structure Unfinished where
  /-- Bits gathered so far. -/
  value : Nat
  /-- How many bytes follow the next one. -/
  owedAfter : Nat
  /-- The least byte that may come next. -/
  low : Nat
  /-- The greatest byte that may come next. -/
  high : Nat
deriving DecidableEq, Repr

/-- What a byte does. -/
inductive Step where
  /-- It ends a character. -/
  | ends (c : Char)
  /-- It leaves a character unfinished. -/
  | leaves (u : Unfinished)
  /-- UTF-8 cannot hold it here. -/
  | refuses
deriving DecidableEq, Repr

/-- A byte where a character may start. -/
def first (byte : UInt8) : Step :=
  let b := byte.toNat
  if b < 0x80 then .ends (Char.ofNat b)
  else if b < 0xC2 then .refuses
  else if b < 0xE0 then .leaves ⟨b - 0xC0, 0, 0x80, 0xBF⟩
  else if b = 0xE0 then .leaves ⟨0, 1, 0xA0, 0xBF⟩
  else if b = 0xED then .leaves ⟨0xD, 1, 0x80, 0x9F⟩
  else if b < 0xF0 then .leaves ⟨b - 0xE0, 1, 0x80, 0xBF⟩
  else if b = 0xF0 then .leaves ⟨0, 2, 0x90, 0xBF⟩
  else if b < 0xF4 then .leaves ⟨b - 0xF0, 2, 0x80, 0xBF⟩
  else if b = 0xF4 then .leaves ⟨4, 2, 0x80, 0x8F⟩
  else .refuses

/-- A byte after an unfinished character. -/
def Unfinished.next (u : Unfinished) (byte : UInt8) : Step :=
  let b := byte.toNat
  if u.low ≤ b ∧ b ≤ u.high then
    let value := u.value * 64 + (b - 0x80)
    match u.owedAfter with
    | 0 => .ends (Char.ofNat value)
    | owed + 1 => .leaves ⟨value, owed, 0x80, 0xBF⟩
  else .refuses

/-- A byte after what was read before it. -/
def step (before : Option Unfinished) (byte : UInt8) : Step :=
  match before with
  | none => first byte
  | some u => u.next byte

/-! ## Reading -/

/-- The characters of bytes that follow what was read before them. -/
def decodeFrom (before : Option Unfinished) : List UInt8 → Option (List Char)
  | [] => if before.isNone then some [] else none
  | b :: rest =>
      match step before b with
      | .ends c => (decodeFrom none rest).map (c :: ·)
      | .leaves u => decodeFrom (some u) rest
      | .refuses => none

/-- The characters of bytes that are UTF-8. -/
def decode? (bytes : List UInt8) : Option (List Char) := decodeFrom none bytes

/-- The text of bytes that are UTF-8. -/
def text? (bytes : List UInt8) : Option String := (decode? bytes).map String.ofList

/-- The characters at the start of bytes that follow what was read before them, and the bytes from the
first one on that belongs to no character. A character that is unfinished began at `start`. -/
def leadingFrom (start : List UInt8) (before : Option Unfinished) :
    List UInt8 → List Char × List UInt8
  | [] => ([], start)
  | b :: rest =>
      match step before b with
      | .ends c => let (cs, others) := leadingFrom rest none rest; (c :: cs, others)
      | .leaves u => leadingFrom start (some u) rest
      | .refuses => ([], start)

/-- The characters at the start of bytes, and the bytes from the first one on that belongs to none. -/
def leading (bytes : List UInt8) : List Char × List UInt8 := leadingFrom bytes none bytes

/-- What stands for bytes that are no character. -/
def replacement : Char := '\ufffd'

/-- The characters of any bytes that follow what was read before them. -/
def decodeLossyFrom (before : Option Unfinished) : List UInt8 → List Char
  | [] => if before.isNone then [] else [replacement]
  | b :: rest =>
      match step before b with
      | .ends c => c :: decodeLossyFrom none rest
      | .leaves u => decodeLossyFrom (some u) rest
      | .refuses =>
          if before.isNone then replacement :: decodeLossyFrom none rest
          else
            replacement :: match first b with
              | .ends c => c :: decodeLossyFrom none rest
              | .leaves u => decodeLossyFrom (some u) rest
              | .refuses => replacement :: decodeLossyFrom none rest

/-- The characters of any bytes, with U+FFFD where they are not UTF-8. -/
def decodeLossy (bytes : List UInt8) : List Char := decodeLossyFrom none bytes

/-- The text of any bytes, with U+FFFD where they are not UTF-8. -/
def lossyText (bytes : List UInt8) : String := String.ofList (decodeLossy bytes)

end ControlClient.Text.Utf8
