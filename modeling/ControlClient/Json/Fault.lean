import ControlClient.Text.Digits

/-!
# Faults in a JSON text

What is wrong with bytes that are no JSON document, and where. While a text is read, a fault carries
the number of bytes that had been taken when it was found; it is shown with the line and the column
of that place. Columns count bytes, so that the column of a byte that is itself at fault counts that
byte.
-/

namespace ControlClient.Json

/-- What is wrong with a text. -/
inductive Defect where
  /-- The text ends inside an array. -/
  | endInArray
  /-- The text ends inside an object. -/
  | endInObject
  /-- The text ends inside a string. -/
  | endInString
  /-- The text ends where a value is expected or unfinished. -/
  | endInValue
  | expectedColon
  | expectedCommaOrBracket
  | expectedCommaOrBrace
  /-- A word that starts as `true`, `false` or `null` does goes on otherwise. -/
  | expectedWord
  | expectedValue
  | invalidEscape
  | invalidNumber
  /-- A number is beyond the greatest double. -/
  | numberOutOfRange
  /-- A string is not UTF-8. -/
  | invalidText
  | controlCharacter
  | keyNotString
  | loneSurrogate
  | unfinishedSurrogate
  | trailingComma
  | trailingCharacters
  /-- Containers are nested too deep. -/
  | tooDeep
deriving DecidableEq, Repr

/-- What a defect is called. -/
def Defect.message : Defect → String
  | endInArray => "EOF while parsing a list"
  | endInObject => "EOF while parsing an object"
  | endInString => "EOF while parsing a string"
  | endInValue => "EOF while parsing a value"
  | expectedColon => "expected `:`"
  | expectedCommaOrBracket => "expected `,` or `]`"
  | expectedCommaOrBrace => "expected `,` or `\x7d`"
  | expectedWord => "expected ident"
  | expectedValue => "expected value"
  | invalidEscape => "invalid escape"
  | invalidNumber => "invalid number"
  | numberOutOfRange => "number out of range"
  | invalidText => "invalid unicode code point"
  | controlCharacter => "control character (\\u0000-\\u001F) found while parsing a string"
  | keyNotString => "key must be a string"
  | loneSurrogate => "lone leading surrogate in hex escape"
  | unfinishedSurrogate => "unexpected end of hex escape"
  | trailingComma => "trailing comma"
  | trailingCharacters => "trailing characters"
  | tooDeep => "recursion limit exceeded"

/-- A defect and the number of bytes taken when it was found. -/
structure Fault where
  defect : Defect
  taken : Nat
deriving DecidableEq, Repr

/-- A place in a text. -/
structure Place where
  /-- Line, counted from one. -/
  line : Nat
  /-- Bytes of the line up to the place. -/
  column : Nat
deriving DecidableEq, Repr

/-- The place one byte further. -/
def Place.after (place : Place) (byte : UInt8) : Place :=
  if byte = 10 then ⟨place.line + 1, 0⟩ else ⟨place.line, place.column + 1⟩

/-- The place at which so many bytes have been taken. -/
def placeAt (bytes : List UInt8) (taken : Nat) : Place :=
  (bytes.take taken).foldl Place.after ⟨1, 0⟩

/-- A defect and its place. -/
structure SyntaxError where
  defect : Defect
  place : Place
deriving DecidableEq, Repr

/-- The place of a fault. -/
def Fault.locate (bytes : List UInt8) (fault : Fault) : SyntaxError :=
  ⟨fault.defect, placeAt bytes fault.taken⟩

/-- What is wrong with a text, and where. -/
def SyntaxError.message (e : SyntaxError) : String :=
  e.defect.message ++ " at line " ++ Text.digitText e.place.line ++ " column " ++
    Text.digitText e.place.column

end ControlClient.Json
