import ControlClient.Json.NumberReader
import ControlClient.Json.StringReader

/-!
# Reading JSON

A document is read byte by byte. The reader keeps what it reads just now, its `Mode`, and the
containers around it, its frames; a value that is complete goes to the innermost frame. So reading is
one pass without recursion into the text, containers may nest up to a limit, and a byte at fault is
known when it is met.

Keys of an object are kept in increasing order, and of two members with one key the later stands.
-/

namespace ControlClient.Json

/-- A container around the value that is being read. -/
inductive Frame where
  /-- An array with its items so far, latest first. -/
  | array (items : List Value)
  /-- An object with its members so far, and the key of the value that is being read. -/
  | object (members : Members) (key : String)

/-- What is being read. -/
inductive Mode where
  /-- A value is expected. -/
  | value
  /-- An array was opened. -/
  | arrayStart
  /-- A comma stands after these items, latest first. -/
  | arrayItem (items : List Value)
  /-- An item is complete. -/
  | arrayNext (items : List Value)
  /-- An object was opened. -/
  | objectStart
  /-- A comma stands after these members. -/
  | objectKey (members : Members)
  /-- A key is being read. -/
  | key (members : Members) (s : StringState)
  /-- A key is complete. -/
  | colon (members : Members) (key : String)
  /-- A member is complete. -/
  | objectNext (members : Members)
  /-- A word is being read; these letters of it are to come. -/
  | word (toCome : List UInt8) (value : Value)
  /-- A number is being read. -/
  | number (s : NumberState)
  /-- A string is being read. -/
  | string (s : StringState)
  /-- The document is complete. -/
  | finished (value : Value)

/-- What the reader knows. -/
structure State where
  mode : Mode
  /-- The containers around it, innermost first. -/
  frames : List Frame

/-- Containers may be nested this deep. -/
def depthLimit : Nat := 127

/-- Whether a byte may stand between tokens. -/
def isSpace (byte : UInt8) : Bool := byte = 32 || byte = 9 || byte = 10 || byte = 13

namespace State

/-- The state before the first byte. -/
def start : State := ⟨.value, []⟩

/-- A value is complete: it goes to the innermost container. -/
def complete (frames : List Frame) (value : Value) : State :=
  match frames with
  | [] => ⟨.finished value, []⟩
  | .array items :: outer => ⟨.arrayNext (value :: items), outer⟩
  | .object members key :: outer => ⟨.objectNext (insert key value members), outer⟩

/-- A container is opened. -/
def openContainer (frames : List Frame) (taken : Nat) (mode : Mode) : Except Fault State :=
  if frames.length < depthLimit then .ok ⟨mode, frames⟩ else .error ⟨.tooDeep, taken + 1⟩

/-- The first byte of a value. -/
def begin (frames : List Frame) (taken : Nat) (byte : UInt8) : Except Fault State :=
  match Char.ofNat byte.toNat, digit? byte with
  | _, some d => .ok ⟨.number (NumberState.afterDigit false d), frames⟩
  | '-', _ => .ok ⟨.number NumberState.afterSign, frames⟩
  | '"', _ => .ok ⟨.string StringState.start, frames⟩
  | '[', _ => openContainer frames taken .arrayStart
  | '\x7b', _ => openContainer frames taken .objectStart
  | 'n', _ => .ok ⟨.word [117, 108, 108] .null, frames⟩
  | 't', _ => .ok ⟨.word [114, 117, 101] (.bool true), frames⟩
  | 'f', _ => .ok ⟨.word [97, 108, 115, 101] (.bool false), frames⟩
  | _, _ => .error ⟨.expectedValue, taken + 1⟩

/-- A byte after a complete value. -/
def between (s : State) (taken : Nat) (byte : UInt8) : Except Fault State :=
  if isSpace byte then .ok s
  else
    match s.mode with
    | .arrayNext items =>
        if byte = 44 then .ok ⟨.arrayItem items, s.frames⟩
        else if byte = 93 then .ok (complete s.frames (.array items.reverse))
        else .error ⟨.expectedCommaOrBracket, taken + 1⟩
    | .objectNext members =>
        if byte = 44 then .ok ⟨.objectKey members, s.frames⟩
        else if byte = 125 then .ok (complete s.frames (.object members))
        else .error ⟨.expectedCommaOrBrace, taken + 1⟩
    | _ => .error ⟨.trailingCharacters, taken + 1⟩

/-- One byte, in front of which so many were taken. -/
def step (s : State) (taken : Nat) (byte : UInt8) : Except Fault State :=
  match s.mode with
  | .value => if isSpace byte then .ok s else begin s.frames taken byte
  | .arrayStart =>
      if isSpace byte then .ok s
      else if byte = 93 then .ok (complete s.frames (.array []))
      else begin (.array [] :: s.frames) taken byte
  | .arrayItem items =>
      if isSpace byte then .ok s
      else if byte = 93 then .error ⟨.trailingComma, taken + 1⟩
      else begin (.array items :: s.frames) taken byte
  | .objectStart =>
      if isSpace byte then .ok s
      else if byte = 125 then .ok (complete s.frames (.object []))
      else if byte = 34 then .ok ⟨.key [] StringState.start, s.frames⟩
      else .error ⟨.keyNotString, taken + 1⟩
  | .objectKey members =>
      if isSpace byte then .ok s
      else if byte = 34 then .ok ⟨.key members StringState.start, s.frames⟩
      else if byte = 125 then .error ⟨.trailingComma, taken + 1⟩
      else .error ⟨.keyNotString, taken + 1⟩
  | .key members t =>
      match t.step taken byte with
      | .goes t => .ok ⟨.key members t, s.frames⟩
      | .ends key => .ok ⟨.colon members key, s.frames⟩
      | .fails fault => .error fault
  | .colon members key =>
      if isSpace byte then .ok s
      else if byte = 58 then .ok ⟨.value, .object members key :: s.frames⟩
      else .error ⟨.expectedColon, taken + 1⟩
  | .word [] value => between (complete s.frames value) taken byte
  | .word (letter :: toCome) value =>
      if byte = letter then
        .ok (if toCome.isEmpty then complete s.frames value else ⟨.word toCome value, s.frames⟩)
      else .error ⟨.expectedWord, taken + 1⟩
  | .number n =>
      match n.step byte with
      | .goes n => .ok ⟨.number n, s.frames⟩
      | .fails defect => .error ⟨defect, taken + 1⟩
      | .ends =>
          match n.value with
          | .ok value => between (complete s.frames value) taken byte
          | .error defect => .error ⟨defect, taken⟩
  | .string t =>
      match t.step taken byte with
      | .goes t => .ok ⟨.string t, s.frames⟩
      | .ends text => .ok (complete s.frames (.string text))
      | .fails fault => .error fault
  | .arrayNext _ | .objectNext _ | .finished _ => between s taken byte

/-- The document, if the text may end here. -/
def result (s : State) : Except Defect Value :=
  match s.mode with
  | .finished value => .ok value
  | .arrayStart | .arrayNext _ => .error .endInArray
  | .objectStart | .colon _ _ | .objectNext _ => .error .endInObject
  | .key _ _ | .string _ => .error .endInString
  | .value | .arrayItem _ | .objectKey _ | .word _ _ | .number _ => .error .endInValue

/-- The end of the text, after so many bytes. -/
def finish (s : State) (taken : Nat) : Except Fault Value :=
  let ended : Except Defect State :=
    match s.mode with
    | .number n => n.value.map (complete s.frames)
    | _ => .ok s
  match ended.bind result with
  | .ok value => .ok value
  | .error defect => .error ⟨defect, taken⟩

/-- Take bytes after so many others. -/
def run (s : State) (taken : Nat) : List UInt8 → Except Fault Value
  | [] => s.finish taken
  | byte :: rest =>
      match s.step taken byte with
      | .ok s => s.run (taken + 1) rest
      | .error fault => .error fault

end State

/-- The document that bytes denote. -/
def read (bytes : List UInt8) : Except SyntaxError Value :=
  match State.start.run 0 bytes with
  | .ok value => .ok value
  | .error fault => .error (fault.locate bytes)

end ControlClient.Json
