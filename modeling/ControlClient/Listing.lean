import ControlClient.Catalog
import ControlClient.CommandLine.Command
import ControlClient.Json.Printer
import ControlClient.Number.Rounding
import ControlClient.Table
import ControlClient.Text.Width

/-!
# Listings

Tasks and recordings as they are shown: as a table for people, or as a JSON array for programs.

The size of a recording is shown in units of `2 ^ 20` bytes with two decimals. It is first brought to
the 53 binary digits of a double, so sizes beyond `2 ^ 53` are shown with that precision; a negative
size keeps its sign even if all its decimals are zero.
-/

namespace ControlClient

namespace Listing

/-- Hundredths of `2 ^ 20` bytes in a number of bytes. -/
def hundredths (bytes : Nat) : Nat :=
  Number.divNearest (Number.roundBits 53 bytes * 100) 0x100000

/-- The cell of a size. -/
def sizeCell (size : Int) : List Char :=
  let shown := hundredths size.natAbs
  (if size < 0 then ['-'] else []) ++ Text.digits (shown / 100) ++
    '.' :: Text.digitsPadded 2 (shown % 100)

/-! ## Tables -/

/-- The columns of tasks. -/
def taskColumns : List Table.Column :=
  [⟨"Name", 30, false⟩, ⟨"Type", 10, false⟩, ⟨"Enabled", 10, false⟩]

/-- The row of a task. -/
def taskRow (t : Task) : List (List Char) :=
  [t.name.toList, t.type.name.toList, (if t.enabled then "true" else "false").toList]

/-- The columns of recordings. -/
def recordingColumns : List Table.Column :=
  [⟨"ID", 40, false⟩, ⟨"Type", 10, false⟩, ⟨"Size (MB)", 15, true⟩]

/-- The row of a recording. -/
def recordingRow (r : Recording) : List (List Char) :=
  [r.id.toList, r.type.name.toList, sizeCell r.size.toInt]

/-- The table of tasks, by a measure of display width. -/
def taskTable (measure : List Char → Nat) (ts : List Task) : String :=
  Table.text measure taskColumns (ts.map taskRow)

/-- The table of recordings, by a measure of display width. -/
def recordingTable (measure : List Char → Nat) (rs : List Recording) : String :=
  Table.text measure recordingColumns (rs.map recordingRow)

/-! ## Both formats -/

/-- A listing of tasks. -/
def tasks [Text.Measure] (format : OutputFormat) (ts : List Task) : String :=
  match format with
  | .table => taskTable Text.Measure.columns ts
  | .json => (Json.Value.array (ts.map Task.toValue)).text

/-- A listing of recordings. -/
def recordings [Text.Measure] (format : OutputFormat) (rs : List Recording) : String :=
  match format with
  | .table => recordingTable Text.Measure.columns rs
  | .json => (Json.Value.array (rs.map Recording.toValue)).text

end Listing

end ControlClient
