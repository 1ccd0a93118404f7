import ControlClient.Text.Unprintable

/-!
# Quoted text

A text in quotes as it is shown in messages: quotes, backslashes, tabs, line ends and the NUL
character are escaped by a backslash and a sign, characters without a picture of their own by their
number in hexadecimal, and all others stand as they are.
-/

namespace ControlClient.Text.Quoted

/-- One character inside quotes. -/
def escapeChar (c : Char) : List Char :=
  if c = '"' then ['\\', '"']
  else if c = '\\' then ['\\', '\\']
  else if c = '\n' then ['\\', 'n']
  else if c = '\r' then ['\\', 'r']
  else if c = '\t' then ['\\', 't']
  else if c = '\x00' then ['\\', '0']
  else if isUnprintable c then
    ['\\', 'u', '\x7b'] ++ Nat.toDigits 16 c.toNat ++ ['\x7d']
  else [c]

/-- A text in quotes. -/
def encode (cs : List Char) : List Char := '"' :: cs.flatMap escapeChar ++ ['"']

/-- A text in quotes. -/
def text (s : String) : String := String.ofList (encode s.toList)

end ControlClient.Text.Quoted
