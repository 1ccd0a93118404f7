import ControlClient.Text.Utf8

/-!
# Percent encoding

A character that may not stand in a component of a URL is written as its UTF-8 bytes, each as a
percent sign and two hexadecimal digits in upper case. Which characters may stand is a matter of the
component, and no component lets a character beyond ASCII stand. Decoding takes a percent sign with
two digits after it for a byte and leaves everything else alone.
-/

namespace ControlClient.Url

/-- A hexadecimal digit, in upper case. -/
def upperHexDigit (n : Nat) : Char := if n < 10 then Char.ofNat (48 + n) else Char.ofNat (55 + n)

/-- A byte as a percent sign and two digits. -/
def percentByte (byte : UInt8) : List Char :=
  ['%', upperHexDigit (byte.toNat / 16), upperHexDigit (byte.toNat % 16)]

/-- A character by the percent codes of its bytes. -/
def percentChar (c : Char) : List Char := (Text.Utf8.encodeChar c).flatMap percentByte

/-- Write the characters that are no member of a set of allowed ones by their percent codes. -/
def percentEncode (allowed : Char → Bool) (cs : List Char) : List Char :=
  cs.flatMap fun c => if allowed c then [c] else percentChar c

/-- The value of a hexadecimal digit. -/
def hexDigitValue? (c : Char) : Option Nat :=
  if '0' ≤ c ∧ c ≤ '9' then some (c.toNat - 48)
  else if 'a' ≤ c ∧ c ≤ 'f' then some (c.toNat - 87)
  else if 'A' ≤ c ∧ c ≤ 'F' then some (c.toNat - 55)
  else none

/-- The byte of two hexadecimal digits. -/
def hexPair? (high low : Char) : Option UInt8 := do
  let h ← hexDigitValue? high
  let l ← hexDigitValue? low
  return UInt8.ofNat (h * 16 + l)

/-- The bytes of a text in which percent codes stand for bytes. -/
def percentDecode : List Char → List UInt8
  | [] => []
  | '%' :: high :: low :: rest =>
      match hexPair? high low with
      | some byte => byte :: percentDecode rest
      | none => Text.Utf8.encodeChar '%' ++ percentDecode (high :: low :: rest)
  | c :: rest => Text.Utf8.encodeChar c ++ percentDecode rest
termination_by cs => cs.length

/-! ## What may stand where -/

/-- Visible ASCII characters, and the space. -/
def isPrintableAscii (c : Char) : Bool := 0x20 ≤ c.toNat && c.toNat < 0x7F

/-- What may stand in a path that does not start with a slash. -/
def allowedInBarePath (c : Char) : Bool := isPrintableAscii c

/-- What may stand in a fragment. -/
def allowedInFragment (c : Char) : Bool :=
  isPrintableAscii c && !([' ', '"', '<', '>', '`'].contains c)

/-- What may stand in a segment of a path. -/
def allowedInPath (c : Char) : Bool :=
  allowedInFragment c && !(['#', '?', '\x7b', '\x7d'].contains c)

/-- What may stand in a user name or a password. -/
def allowedInCredentials (c : Char) : Bool :=
  allowedInPath c && !(['/', ':', ';', '=', '@', '[', '\\', ']', '^', '|'].contains c)

/-- What may stand in a query. -/
def allowedInQuery (c : Char) : Bool :=
  isPrintableAscii c && !([' ', '"', '#', '<', '>'].contains c)

/-- What may stand in the query of a scheme that is special. -/
def allowedInSpecialQuery (c : Char) : Bool := allowedInQuery c && c != '\''

end ControlClient.Url
