import ControlClient.Text.Blank
import ControlClient.Text.Split

/-!
# Tables

A table without rules: columns side by side, each as wide as its widest cell and one blank, and at least
as wide as is asked for. Widths are counted in display columns, by any measure of what a text takes on a
terminal. A cell with line ends takes several lines, and blanks at the end of a line are dropped.

## Main results

* `length_rowLines`: a row takes as many lines as its tallest cell.
-/

namespace ControlClient.Table

/-- How a column is set. -/
structure Column where
  title : String
  /-- The least width, the blank at its end included. -/
  minWidth : Nat
  /-- Whether cells stand at the right end. -/
  right : Bool
deriving DecidableEq, Repr

/-- The lines of a cell. -/
def pieces (cell : List Char) : List (List Char) := Text.splitAll '\n' cell

/-- The greatest number of a list, or zero. -/
def greatest (ns : List Nat) : Nat := ns.foldr max 0

/-- How many lines a row takes. -/
def height (row : List (List Char)) : Nat := greatest (row.map fun cell => (pieces cell).length)

/-- The cells of a column: its title and its cell in each row. -/
def column (i : Nat) (rows : List (List (List Char))) : List (List Char) :=
  rows.map fun row => row[i]?.getD []

variable (measure : List Char → Nat)

/-- The width of the widest line of a cell. -/
def cellWidth (cell : List Char) : Nat := greatest ((pieces cell).map measure)

/-- The width of a column with these cells. -/
def columnWidth (c : Column) (cells : List (List Char)) : Nat :=
  max c.minWidth (1 + greatest (cells.map (cellWidth measure)))

/-- One line of a cell, filled up to the width of its column. -/
def fill (right : Bool) (width : Nat) (piece : List Char) : List Char :=
  let blanks := List.replicate (width - 1 - measure piece) ' '
  if right then blanks ++ piece ++ [' '] else piece ++ blanks ++ [' ']

/-- One line of a row whose cells are given by their lines; a cell with fewer lines is empty there. -/
def rowLine (settings : List (Bool × Nat)) (cells : List (List (List Char))) (i : Nat) :
    List Char :=
  Text.trimEnd <| ((settings.zip cells).map fun (setting, lines) =>
    fill measure setting.1 setting.2 (lines[i]?.getD [])).flatten

/-- The lines of a row. -/
def rowLines (settings : List (Bool × Nat)) (row : List (List Char)) : List (List Char) :=
  let cells := row.map pieces
  (List.range (height row)).map (rowLine measure settings cells)

theorem length_rowLines (settings : List (Bool × Nat)) (row : List (List Char)) :
    (rowLines measure settings row).length = height row := by
  simp [rowLines]

/-- Alignment and width of every column. -/
def settings (columns : List Column) (rows : List (List (List Char))) : List (Bool × Nat) :=
  columns.mapIdx fun i c => (c.right, columnWidth measure c (column i rows))

/-- The lines of a table: its titles, then its rows. -/
def lines (columns : List Column) (rows : List (List (List Char))) : List (List Char) :=
  let all := columns.map (fun c => c.title.toList) :: rows
  all.flatMap (rowLines measure (settings measure columns all))

/-- A table as text, without a line end behind the last line. -/
def text (columns : List Column) (rows : List (List (List Char))) : String :=
  String.ofList (Text.joinWith '\n' (lines measure columns rows))

end ControlClient.Table
