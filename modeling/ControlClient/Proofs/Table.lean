import ControlClient.Proofs.Text.Split
import ControlClient.Table
import Mathlib.Data.List.MinMax
import Mathlib.Order.Nat

/-!
# Lines and columns of tables

A table is cut into its lines again, since no piece of a cell holds a line end and neither do the blanks
around it. In the tables of this program only the first cell of a row may have several pieces, and the last one
ends with a character that is seen (`Entry`). Then nothing but blanks is trimmed off the first line of a
row, and every further line is a piece of the first cell that is trimmed on its own (`entryLines`).

Of the measure of display width nothing is assumed. The columns of a line are counted cell by cell: what a
cell takes is the width of its text and a column for each of the blanks that fill it up (`Placed`). A measure
need not give the width of a line as that of its parts.

## Main results

* `splitAll_text`: the lines that a text of a table has.
* `rowLines_entry`: the lines of a row.
* `lines_entries`: the lines of a table.
* `width_lt_columnWidth`: there is room for every piece in its column.
-/

namespace ControlClient

namespace Text

/-! ## Trimmed ends -/

theorem trimEnd_append_blanks {cs blanks : List Char} (h : ∀ c ∈ blanks, isBlank c = true) :
    trimEnd (cs ++ blanks) = trimEnd cs := by
  rw [trimEnd, List.reverse_append, List.dropWhile_append_of_pos (by simpa using h), trimEnd]

/-- A text is seen to its end. -/
def EndsInked (cs : List Char) : Prop := ∃ front c, cs = front ++ [c] ∧ isBlank c = false

theorem EndsInked.append {cs : List Char} (h : EndsInked cs) (front : List Char) :
    EndsInked (front ++ cs) := by
  obtain ⟨before, c, rfl, hc⟩ := h
  exact ⟨front ++ before, c, by rw [List.append_assoc], hc⟩

theorem EndsInked.trimEnd_eq {cs : List Char} (h : EndsInked cs) : trimEnd cs = cs := by
  obtain ⟨front, c, rfl, hc⟩ := h
  exact trimEnd_append_inked hc

theorem mem_of_mem_trimEnd {cs : List Char} {c : Char} (h : c ∈ trimEnd cs) : c ∈ cs :=
  List.mem_reverse.1 ((List.dropWhile_sublist _).subset (List.mem_reverse.1 h))

end Text

namespace Table

open Text (EndsInked isBlank splitAll trimEnd trimEnd_append_blanks)

/-! ## Widths -/

theorem greatest_append (ms ns : List Nat) :
    greatest (ms ++ ns) = max (greatest ms) (greatest ns) := by
  induction ms with
  | nil => exact (Nat.zero_max _).symm
  | cons m ms ih =>
      show max m (greatest (ms ++ ns)) = max (max m (greatest ms)) (greatest ns)
      rw [ih, Nat.max_assoc]

theorem greatest_flatMap {α : Type} (f : α → List Nat) (xs : List α) :
    greatest (xs.flatMap f) = greatest (xs.map fun x => greatest (f x)) := by
  induction xs with
  | nil => rfl
  | cons x xs ih => rw [List.flatMap_cons, greatest_append, ih]; rfl

theorem le_greatest {n : Nat} {ns : List Nat} (h : n ∈ ns) : n ≤ greatest ns :=
  List.le_max_of_le h (Nat.le_refl n)

theorem greatest_le {n : Nat} {ns : List Nat} (h : ∀ m ∈ ns, m ≤ n) : greatest ns ≤ n :=
  List.max_le_of_forall_le ns n h

theorem pieces_of_not_mem {cell : List Char} (h : '\n' ∉ cell) : pieces cell = [cell] :=
  Text.splitAll_of_not_mem h

variable (measure : List Char → Nat)

/-- A column is as wide as the widest piece of any of its cells and one blank. -/
theorem columnWidth_eq (c : Column) (cells : List (List Char)) :
    columnWidth measure c cells =
      max c.minWidth (1 + greatest (cells.flatMap fun cell => (pieces cell).map measure)) := by
  rw [greatest_flatMap]
  rfl

theorem cellWidth_of_not_mem {cell : List Char} (h : '\n' ∉ cell) :
    cellWidth measure cell = measure cell := by
  rw [cellWidth, pieces_of_not_mem h]
  exact Nat.max_zero _

variable {measure}

/-- **Every piece of a cell is narrower than its column.** -/
theorem width_lt_columnWidth {c : Column} {cells : List (List Char)} {cell piece : List Char}
    (hCell : cell ∈ cells) (hPiece : piece ∈ pieces cell) :
    measure piece < columnWidth measure c cells := by
  have hWidest : measure piece ≤ greatest (cells.flatMap fun cell => (pieces cell).map measure) :=
    le_greatest (List.mem_flatMap.2 ⟨cell, hCell, List.mem_map_of_mem hPiece⟩)
  rw [columnWidth_eq]
  omega

/-- A column whose cells all leave a blank is as wide as is asked for. -/
theorem columnWidth_of_narrow {c : Column} {cells : List (List Char)} (hMin : 0 < c.minWidth)
    (h : ∀ cell ∈ cells, cellWidth measure cell < c.minWidth) :
    columnWidth measure c cells = c.minWidth := by
  have hWidest : greatest (cells.map (cellWidth measure)) ≤ c.minWidth - 1 := by
    refine greatest_le fun m hm => ?_
    obtain ⟨cell, hCell, rfl⟩ := List.mem_map.1 hm
    exact Nat.le_pred_of_lt (h cell hCell)
  rw [columnWidth]
  omega

/-! ## Places on a line -/

/-- A text on a line, with the number of blanks on both sides of it. -/
structure Placed where
  before : Nat
  text : List Char
  behind : Nat

/-- What is written of it. -/
def Placed.chars (p : Placed) : List Char :=
  List.replicate p.before ' ' ++ p.text ++ List.replicate p.behind ' '

/-- The texts on a line, side by side. -/
def lineText (line : List Placed) : List Char := (line.map Placed.chars).flatten

variable (measure)

/-- The columns at which each text on a line starts and ends, counted from a column on. -/
def places (column : Nat) : List Placed → List (List Char × Nat × Nat)
  | [] => []
  | p :: line =>
      (p.text, column + p.before, column + p.before + measure p.text) ::
        places (column + p.before + measure p.text + p.behind) line

/-- A text at the left end of so many columns. -/
def atLeft (width : Nat) (piece : List Char) : Placed := ⟨0, piece, width - measure piece⟩

/-- A text at the right end of so many columns. -/
def atRight (width : Nat) (piece : List Char) : Placed := ⟨width - measure piece, piece, 0⟩

/-- The last text of a line, without the blanks at the end of its cell. -/
def atEnd (right : Bool) (width : Nat) (piece : List Char) : Placed :=
  if right then atRight measure (width - 1) piece else ⟨0, piece, 0⟩

section Blanks

variable {width : Nat} {piece : List Char}

theorem isBlank_of_mem_replicate {n : Nat} {c : Char} (h : c ∈ List.replicate n ' ') :
    isBlank c = true := by
  rw [List.eq_of_mem_replicate h]
  decide

theorem fill_left (h : measure piece < width) :
    fill measure false width piece = (atLeft measure width piece).chars := by
  have hBlanks : width - measure piece = width - 1 - measure piece + 1 := by omega
  rw [Placed.chars, atLeft, hBlanks, List.replicate_succ', ← List.append_assoc]
  rfl

theorem fill_eq_atEnd (right : Bool) (width : Nat) (piece : List Char) :
    ∃ blanks, (∀ c ∈ blanks, isBlank c = true) ∧
      fill measure right width piece = (atEnd measure right width piece).chars ++ blanks := by
  cases right with
  | true =>
      refine ⟨List.replicate 1 ' ', fun c => isBlank_of_mem_replicate, ?_⟩
      simp [fill, atEnd, atRight, Placed.chars]
  | false =>
      refine ⟨List.replicate (width - 1 - measure piece + 1) ' ', fun c => isBlank_of_mem_replicate, ?_⟩
      simp [fill, atEnd, Placed.chars, List.replicate_succ']

theorem endsInked_atEnd {right : Bool} (h : EndsInked piece) :
    EndsInked (atEnd measure right width piece).chars := by
  cases right with
  | true => simpa [atEnd, atRight, Placed.chars] using h.append _
  | false => simpa [atEnd, Placed.chars] using h

theorem mem_of_mem_fill {right : Bool} {c : Char} (h : c ∈ fill measure right width piece) :
    c = ' ' ∨ c ∈ piece := by
  have hBlank : c ∈ List.replicate (width - 1 - measure piece) ' ' → c = ' ' := List.eq_of_mem_replicate
  cases right <;> grind [fill]

/-- An empty cell is all blank. -/
theorem isBlank_of_mem_fill_nil {right : Bool} {c : Char} (h : c ∈ fill measure right width []) :
    isBlank c = true := by
  rcases mem_of_mem_fill measure h with rfl | hInside
  · decide
  · cases hInside

end Blanks

/-! ## Lines of a row -/

section Rows

/-- Pieces side by side, each filled up to the width of its column. -/
def filled (settings : List (Bool × Nat)) (row : List (List Char)) : List Char :=
  ((settings.zip row).map fun (setting, piece) => fill measure setting.1 setting.2 piece).flatten

theorem rowLine_eq (settings : List (Bool × Nat)) (cells : List (List (List Char))) (i : Nat) :
    rowLine measure settings cells i =
      trimEnd (filled measure settings (cells.map fun lines => lines[i]?.getD [])) := by
  rw [rowLine, filled, List.zip_map_right, List.map_map]
  rfl

variable {measure}

theorem exists_of_mem_filled {settings : List (Bool × Nat)} {row : List (List Char)} {c : Char}
    (h : c ∈ filled measure settings row) :
    ∃ setting : Bool × Nat, ∃ piece ∈ row, c ∈ fill measure setting.1 setting.2 piece := by
  obtain ⟨_, hFill, hc⟩ := List.mem_flatten.1 h
  obtain ⟨⟨setting, piece⟩, hPiece, rfl⟩ := List.mem_map.1 hFill
  exact ⟨setting, piece, (List.of_mem_zip hPiece).2, hc⟩

theorem not_mem_of_mem_rowLines {settings : List (Bool × Nat)} {row : List (List Char)}
    {line : List Char} (hLine : line ∈ rowLines measure settings row) : '\n' ∉ line := by
  obtain ⟨i, -, rfl⟩ := List.mem_map.1 hLine
  intro hEnd
  rw [rowLine_eq] at hEnd
  obtain ⟨_, piece, hPiece, hFill⟩ := exists_of_mem_filled (Text.mem_of_mem_trimEnd hEnd)
  obtain ⟨lines, hLines, rfl⟩ := List.mem_map.1 hPiece
  obtain ⟨cell, -, rfl⟩ := List.mem_map.1 hLines
  rcases mem_of_mem_fill measure hFill with hBlank | hInside
  · exact absurd hBlank (by decide)
  · cases hHere : (pieces cell)[i]? with
    | none => simp [hHere] at hInside
    | some here =>
        rw [hHere] at hInside
        exact Text.not_mem_of_mem_splitAll (List.mem_of_getElem? hHere) hInside

variable {settings : List (Bool × Nat)} {right : Bool} {width : Nat} {cell first : List Char}
  {others further : List (List Char)}

theorem height_of_flat (hOthers : ∀ other ∈ others, '\n' ∉ other) :
    height (cell :: others) = (pieces cell).length := by
  have hSome : 0 < (pieces cell).length := List.length_pos_iff.2 (Text.splitAll_ne_nil _ _)
  have hLow : greatest (others.map fun other => (pieces other).length) ≤ 1 := by
    refine greatest_le fun m hm => ?_
    obtain ⟨other, hOther, rfl⟩ := List.mem_map.1 hm
    rw [pieces_of_not_mem (hOthers other hOther)]
    exact Nat.le_refl 1
  exact Nat.max_eq_left (Nat.le_trans hLow hSome)

/-- Where the other cells are empty, only a piece of the first cell is left. -/
theorem trimEnd_alone (piece : List Char) :
    trimEnd (fill measure false width piece ++ filled measure settings (others.map fun _ => [])) =
      trimEnd piece := by
  obtain ⟨blanks, hBlanks, hFill⟩ := fill_eq_atEnd measure false width piece
  have hPiece : (atEnd measure false width piece).chars = piece := by simp [atEnd, Placed.chars]
  rw [hFill, hPiece, List.append_assoc]
  refine Text.trimEnd_append_blanks fun c hc => ?_
  rcases List.mem_append.1 hc with hc | hc
  · exact hBlanks c hc
  · obtain ⟨_, piece', hPiece', hFill'⟩ := exists_of_mem_filled hc
    obtain ⟨_, -, rfl⟩ := List.mem_map.1 hPiece'
    exact isBlank_of_mem_fill_nil measure hFill'

/-- **The lines of a row whose first cell alone has line ends.** -/
theorem rowLines_of_flat (hFirst : pieces cell = first :: further)
    (hOthers : ∀ other ∈ others, '\n' ∉ other) :
    rowLines measure ((false, width) :: settings) (cell :: others) =
      trimEnd (fill measure false width first ++ filled measure settings others) ::
        further.map trimEnd := by
  have hPieces : others.map pieces = others.map fun other => [other] :=
    List.map_congr_left fun other hOther => pieces_of_not_mem (hOthers other hOther)
  have hTop : rowLine measure ((false, width) :: settings)
      ((first :: further) :: others.map pieces) 0 =
        trimEnd (fill measure false width first ++ filled measure settings others) := by
    rw [rowLine_eq, hPieces, List.map_cons, List.map_map]
    exact congrArg (fun row => trimEnd (fill measure false width first ++ filled measure settings row))
      (List.map_id others)
  have hBelow (i : Nat) : rowLine measure ((false, width) :: settings)
      ((first :: further) :: others.map pieces) (i + 1) = trimEnd (further[i]?.getD []) := by
    rw [rowLine_eq, hPieces, List.map_cons, List.map_map]
    exact trimEnd_alone (further[i]?.getD [])
  rw [rowLines, height_of_flat hOthers, List.map_cons, hFirst, List.length_cons,
    List.range_succ_eq_map, List.map_cons, List.map_map, hTop]
  refine congrArg (List.cons _) (List.ext_getElem (by simp) fun i hi hi' => ?_)
  simp only [List.getElem_map, List.getElem_range, Function.comp_apply, hBelow]
  rw [List.getElem?_eq_getElem (by simpa using hi'), Option.getD_some]

end Rows

/-! ## Entries -/

/-- Cells that take one line, but for the first, and of which the last one is seen to its end. -/
structure Entry where
  name : List Char
  kind : List Char
  last : List Char
  kind_flat : '\n' ∉ kind
  last_flat : '\n' ∉ last
  last_inked : EndsInked last

def Entry.row (e : Entry) : List (List Char) := [e.name, e.kind, e.last]

/-- The first line of an entry, with a piece of its name. -/
def firstLine (W T : Nat) (piece kind : List Char) (last : Placed) : List Placed :=
  [atLeft measure W piece, atLeft measure T kind, last]

/-- The lines of an entry: one with the first piece of the name and all other cells, and one for each
further piece alone. -/
def entryLines (W T : Nat) (name kind : List Char) (last : Placed) : List (List Char) :=
  match pieces name with
  | [] => []
  | first :: further => lineText (firstLine measure W T first kind last) :: further.map trimEnd

section Entries

variable {measure} {W T E : Nat} {name kind : List Char} {last : Placed} {right : Bool}

theorem entryLines_of_not_mem (h : '\n' ∉ name) :
    entryLines measure W T name kind last = [lineText (firstLine measure W T name kind last)] := by
  rw [entryLines, pieces_of_not_mem h]
  rfl

/-- Where the texts of a first line stand. -/
theorem places_firstLine {piece : List Char} (hPiece : measure piece ≤ W) (hKind : measure kind ≤ T) :
    places measure 0 (firstLine measure W T piece kind last) =
      [(piece, 0, measure piece), (kind, W, W + measure kind),
        (last.text, W + T + last.before, W + T + last.before + measure last.text)] := by
  have hSecond : measure piece + (W - measure piece) = W := by omega
  have hThird : W + measure kind + (T - measure kind) = W + T := by omega
  simp only [firstLine, places, atLeft, Nat.zero_add, Nat.add_zero, hSecond, hThird]

/-- **The lines of a row with cells like these.** -/
theorem rowLines_entry {e : Entry} (hName : ∀ piece ∈ pieces e.name, measure piece < W)
    (hKind : measure e.kind < T) :
    rowLines measure [(false, W), (false, T), (right, E)] e.row =
      entryLines measure W T e.name e.kind (atEnd measure right E e.last) := by
  obtain ⟨first, further, hPieces⟩ := List.exists_cons_of_ne_nil (Text.splitAll_ne_nil '\n' e.name)
  have hFirst : measure first < W := hName first (by rw [pieces, hPieces]; exact List.mem_cons_self)
  have hFlat : ∀ other ∈ [e.kind, e.last], '\n' ∉ other := by
    simp [e.kind_flat, e.last_flat]
  obtain ⟨blanks, hBlanks, hLast⟩ := fill_eq_atEnd measure right E e.last
  have hLine : fill measure false W first ++ filled measure [(false, T), (right, E)] [e.kind, e.last] =
      lineText (firstLine measure W T first e.kind (atEnd measure right E e.last)) ++ blanks := by
    show fill measure false W first ++
      (fill measure false T e.kind ++ (fill measure right E e.last ++ [])) = _
    rw [fill_left measure hFirst, fill_left measure hKind, hLast]
    simp [lineText, firstLine]
  have hSeen : EndsInked
      (lineText (firstLine measure W T first e.kind (atEnd measure right E e.last))) := by
    have hInked : EndsInked (atEnd measure right E e.last).chars := endsInked_atEnd measure e.last_inked
    simpa [lineText, firstLine] using (hInked.append _).append _
  rw [Entry.row, rowLines_of_flat hPieces hFlat, hLine, Text.trimEnd_append_blanks hBlanks,
    hSeen.trimEnd_eq, entryLines, pieces, hPieces]

/-- **The lines of a table with such rows**, if there is room for the kinds in their column. -/
theorem lines_entries {c₀ c₁ c₂ : Column} {head : Entry} {entries : List Entry}
    (h₀ : c₀.right = false) (h₁ : c₁.right = false)
    (hHead : head.row = [c₀.title.toList, c₁.title.toList, c₂.title.toList])
    (hKinds : ∀ e ∈ head :: entries, measure e.kind < c₁.minWidth) :
    lines measure [c₀, c₁, c₂] (entries.map Entry.row) =
      (head :: entries).flatMap fun e =>
        entryLines measure (columnWidth measure c₀ ((head :: entries).map Entry.name)) c₁.minWidth
          e.name e.kind
          (atEnd measure c₂.right (columnWidth measure c₂ ((head :: entries).map Entry.last)) e.last) := by
  have hAll : [c₀, c₁, c₂].map (fun c => c.title.toList) :: entries.map Entry.row =
      (head :: entries).map Entry.row := by
    show _ = head.row :: entries.map Entry.row
    rw [hHead]
    rfl
  have hColumn (i : Nat) : column i ((head :: entries).map Entry.row) =
      (head :: entries).map fun e => e.row[i]?.getD [] := by
    rw [column, List.map_map]
    rfl
  have hKindWidth : columnWidth measure c₁ ((head :: entries).map Entry.kind) = c₁.minWidth := by
    refine columnWidth_of_narrow (Nat.zero_lt_of_lt (hKinds head List.mem_cons_self)) fun kind hKind => ?_
    obtain ⟨e, he, rfl⟩ := List.mem_map.1 hKind
    rw [cellWidth_of_not_mem measure e.kind_flat]
    exact hKinds e he
  have hSettings : settings measure [c₀, c₁, c₂] ((head :: entries).map Entry.row) =
      [(false, columnWidth measure c₀ ((head :: entries).map Entry.name)), (false, c₁.minWidth),
        (c₂.right, columnWidth measure c₂ ((head :: entries).map Entry.last))] := by
    show [(c₀.right, columnWidth measure c₀ (column 0 _)),
      (c₁.right, columnWidth measure c₁ (column 1 _)),
      (c₂.right, columnWidth measure c₂ (column 2 _))] = _
    rw [h₀, h₁, hColumn, hColumn, hColumn, ← hKindWidth]
    rfl
  rw [lines, hAll, hSettings, List.flatMap_map]
  exact List.flatMap_congr fun e he =>
    rowLines_entry (fun piece => width_lt_columnWidth (List.mem_map_of_mem he)) (hKinds e he)

end Entries

/-! ## Text -/

theorem lines_ne_nil {columns : List Column} (hSome : columns ≠ [])
    (rows : List (List (List Char))) : lines measure columns rows ≠ [] := by
  obtain ⟨c, rest, rfl⟩ := List.exists_cons_of_ne_nil hSome
  have hPieces : 0 < (pieces c.title.toList).length := List.length_pos_iff.2 (Text.splitAll_ne_nil _ _)
  have hHeight : (pieces c.title.toList).length ≤
      height ((c :: rest).map fun column => column.title.toList) := Nat.le_max_left _ _
  intro hNil
  have hTitles := (List.append_eq_nil_iff.1 hNil).1
  rw [← List.length_eq_zero_iff, length_rowLines] at hTitles
  omega

/-- **The lines of a table are found in its text.** -/
theorem splitAll_text {columns : List Column} (hSome : columns ≠ []) (rows : List (List (List Char))) :
    splitAll '\n' (text measure columns rows).toList = lines measure columns rows := by
  rw [text, String.toList_ofList]
  refine Text.splitAll_joinWith (lines_ne_nil measure hSome rows) fun line hLine => ?_
  obtain ⟨row, -, hRow⟩ := List.mem_flatMap.1 hLine
  exact not_mem_of_mem_rowLines hRow

end Table

end ControlClient
