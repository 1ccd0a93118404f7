import ControlClient.Json.Value
import ControlClient.Text.Digits

/-!
# Writing JSON

Documents are written over several lines, two blanks deeper for each container, and without lines of
their own for empty containers. In a string only quotes, backslashes and control characters below
U+0020 are escaped, the common ones by a letter and the others by their code.
-/

namespace ControlClient.Json

/-- A hexadecimal digit, in lower case. -/
def hexDigit (n : Nat) : Char := Nat.digitChar n

/-- One character inside a string. -/
def escapeChar (c : Char) : List Char :=
  if c = '"' then ['\\', '"']
  else if c = '\\' then ['\\', '\\']
  else if c = '\x08' then ['\\', 'b']
  else if c = '\x0c' then ['\\', 'f']
  else if c = '\n' then ['\\', 'n']
  else if c = '\r' then ['\\', 'r']
  else if c = '\t' then ['\\', 't']
  else if c.toNat < 0x20 then
    ['\\', 'u', '0', '0', hexDigit (c.toNat / 16), hexDigit (c.toNat % 16)]
  else [c]

/-- A string in quotes. -/
def quote (s : String) : List Char := '"' :: s.toList.flatMap escapeChar ++ ['"']

/-- The start of a line at a depth. -/
def newLine (depth : Nat) : List Char := '\n' :: List.replicate (2 * depth) ' '

mutual

/-- A document that stands at a depth. -/
def print (depth : Nat) : Value → List Char
  | .null => ['n', 'u', 'l', 'l']
  | .bool true => ['t', 'r', 'u', 'e']
  | .bool false => ['f', 'a', 'l', 's', 'e']
  | .integer n => (Text.intText n).toList
  | .fractional x => x.text.toList
  | .string s => quote s
  | .array [] => ['[', ']']
  | .array (item :: rest) =>
      '[' :: newLine (depth + 1) ++ print (depth + 1) item ++ printItems depth rest ++ [']']
  | .object [] => ['\x7b', '\x7d']
  | .object ((key, value) :: rest) =>
      '\x7b' :: newLine (depth + 1) ++ quote key ++ [':', ' '] ++ print (depth + 1) value ++
        printMembers depth rest ++ ['\x7d']

/-- The items after the first, and the line of the closing bracket. -/
def printItems (depth : Nat) : List Value → List Char
  | [] => newLine depth
  | item :: rest =>
      ',' :: newLine (depth + 1) ++ print (depth + 1) item ++ printItems depth rest

/-- The members after the first, and the line of the closing brace. -/
def printMembers (depth : Nat) : List (String × Value) → List Char
  | [] => newLine depth
  | (key, value) :: rest =>
      ',' :: newLine (depth + 1) ++ quote key ++ [':', ' '] ++ print (depth + 1) value ++
        printMembers depth rest

end

/-- A document as text. -/
def Value.text (v : Value) : String := String.ofList (print 0 v)

end ControlClient.Json
