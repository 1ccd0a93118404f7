import ControlClient.Proofs.Listing.Sizes
import ControlClient.Proofs.Table

/-!
# Tables of tasks and recordings

Both tables have a first column for names, which may hold anything, and two further columns for what the
program writes itself. The second column starts behind the widest piece of any name, for all rows; types
are shorter than their column, so what is behind them has a fixed place too.

Display widths are those of any measure that gives printable ASCII one column a character
(`MeasuresPlain`), as `Text.width` does.

## Main results

* `splitAll_tasks`, `splitAll_recordings`: all lines of the tables.
* `tables_aligned`: the lines, and the columns at which their cells stand.
-/

namespace ControlClient.Listing

open Table
open Text (EndsInked)

/-! ## Cells -/

theorem Denotes.flat {cs : List Char} {n : Nat} (h : Denotes cs n) : '\n' ∉ cs := by
  obtain ⟨whole, places, rfl, -, -, hDigits, -⟩ := h
  intro hEnd
  have hDigit : '\n' ∈ whole ++ places := by
    rcases List.mem_append.1 hEnd with hWhole | hPlaces
    · exact List.mem_append_left _ hWhole
    · rcases List.mem_cons.1 hPlaces with hPoint | hPlaces
      · exact absurd hPoint (by decide)
      · exact List.mem_append_right _ hPlaces
  exact absurd (hDigits _ hDigit) (by decide)

theorem Denotes.endsInked {cs : List Char} {n : Nat} (h : Denotes cs n) : EndsInked cs := by
  obtain ⟨whole, places, rfl, -, hTwo, hDigits, -⟩ := h
  rcases List.eq_nil_or_concat places with rfl | ⟨front, c, rfl⟩
  · simp at hTwo
  · exact ⟨whole ++ '.' :: front, c, by simp, Text.isBlank_of_isDigit (hDigits c (by simp))⟩

/-- What shows a number is on one line. -/
theorem Shows.flat {cs : List Char} {v : ℚ} (h : Shows cs v) : '\n' ∉ cs := by
  cases h with
  | unsigned h => exact h.flat
  | negative h =>
      rw [List.mem_cons, not_or]
      exact ⟨by decide, h.flat⟩

/-- What shows a number is seen to its end. -/
theorem Shows.endsInked {cs : List Char} {v : ℚ} (h : Shows cs v) : EndsInked cs := by
  cases h with
  | unsigned h => exact h.endsInked
  | negative h => exact h.endsInked.append ['-']

theorem flat_typeName (type : TaskType) : '\n' ∉ type.name.toList := by
  cases type <;> decide

/-- The cell that says whether a task is enabled. -/
def enabledCell (enabled : Bool) : List Char := (if enabled then "true" else "false").toList

theorem flat_enabledCell (enabled : Bool) : '\n' ∉ enabledCell enabled := by
  cases enabled <;> decide

theorem endsInked_enabledCell (enabled : Bool) : EndsInked (enabledCell enabled) := by
  cases enabled
  · exact ⟨"fals".toList, 'e', by decide, by decide⟩
  · exact ⟨"tru".toList, 'e', by decide, by decide⟩

/-! ## Widths -/

/-- A character of printable ASCII. -/
def isPrintable (c : Char) : Bool := 32 ≤ c.toNat && c.toNat ≤ 126

/-- Printable ASCII takes one column a character. -/
def MeasuresPlain (measure : List Char → Nat) : Prop :=
  ∀ cs : List Char, cs.all isPrintable = true → measure cs = cs.length

theorem measuresPlain_width : MeasuresPlain Text.width := by
  intro cs hPlain
  induction cs with
  | nil => rfl
  | cons c cs ih =>
      rw [List.all_cons, Bool.and_eq_true, isPrintable, Bool.and_eq_true, decide_eq_true_eq,
        decide_eq_true_eq] at hPlain
      have hOne : Text.charWidth c = 1 := if_pos (Nat.lt_succ_of_le hPlain.1.2)
      rw [Text.width_cons, hOne, ih hPlain.2, List.length_cons, Nat.add_comm]

variable {measure : List Char → Nat}

theorem MeasuresPlain.typeName (h : MeasuresPlain measure) (type : TaskType) :
    measure type.name.toList < 10 := by
  cases type <;> rw [h _ (by decide)] <;> decide

variable (measure) in
/-- The width of a column of names: one more than that of the widest piece, if it is not less than is asked
for. -/
def nameWidth (least : Nat) (title : String) (names : List String) : Nat :=
  max least (1 + greatest ((title :: names).flatMap fun name => (pieces name.toList).map measure))

theorem columnWidth_names (least : Nat) (title : String) (names : List String) :
    columnWidth measure ⟨title, least, false⟩ ((title :: names).map String.toList) =
      nameWidth measure least title names := by
  rw [columnWidth_eq, List.flatMap_map]
  rfl

theorem width_lt_nameWidth {least : Nat} {title name : String} {names : List String}
    {piece : List Char} (hName : name ∈ title :: names) (hPiece : piece ∈ pieces name.toList) :
    measure piece < nameWidth measure least title names := by
  rw [← columnWidth_names]
  exact width_lt_columnWidth (List.mem_map_of_mem hName) hPiece

/-! ## Lines -/

/-- **All lines of a table of entries.** -/
theorem splitAll_entries {ι : Type} (hMeasure : MeasuresPlain measure) (least : Nat) (title : String)
    (c : Column) (name : ι → String) (entry : ι → Entry) (items : List ι) (hTitle : '\n' ∉ title.toList)
    (hLast : '\n' ∉ c.title.toList) (hInked : EndsInked c.title.toList)
    (hNames : ∀ i, (entry i).name = (name i).toList) (hKinds : ∀ i, measure (entry i).kind < 10) :
    Text.splitAll '\n' (text measure [⟨title, least, false⟩, ⟨"Type", 10, false⟩, c]
        (items.map fun i => (entry i).row)).toList =
      let W := nameWidth measure least title (items.map name)
      let E := columnWidth measure c (c.title.toList :: items.map fun i => (entry i).last)
      lineText (firstLine measure W 10 title.toList "Type".toList
          (atEnd measure c.right E c.title.toList)) ::
        items.flatMap fun i => entryLines measure W 10 (name i).toList (entry i).kind
          (atEnd measure c.right E (entry i).last) := by
  let head : Entry := ⟨title.toList, "Type".toList, c.title.toList, by decide, hLast, hInked⟩
  have hType : measure "Type".toList < 10 := by
    rw [hMeasure _ (by decide)]
    decide
  have hKinds' : ∀ e ∈ head :: items.map entry, measure e.kind < 10 := by
    intro e he
    rcases List.mem_cons.1 he with rfl | he
    · exact hType
    · obtain ⟨i, -, rfl⟩ := List.mem_map.1 he
      exact hKinds i
  have hRows : (items.map fun i => (entry i).row) = (items.map entry).map Entry.row := by
    rw [List.map_map]
    rfl
  have hAllNames : (head :: items.map entry).map Entry.name =
      (title :: items.map name).map String.toList := by
    rw [List.map_cons, List.map_cons, List.map_map, List.map_map]
    exact congrArg _ (List.map_congr_left fun i _ => hNames i)
  have hAllLast : (head :: items.map entry).map Entry.last =
      c.title.toList :: items.map fun i => (entry i).last := by
    rw [List.map_cons, List.map_map]
    rfl
  rw [splitAll_text measure (by simp), hRows, lines_entries rfl rfl rfl hKinds', hAllNames, hAllLast,
    columnWidth_names, List.flatMap_cons, List.flatMap_map, entryLines_of_not_mem hTitle]
  simp only [hNames]
  rfl

/-- The lines of an entry, if its second column starts behind its name. -/
theorem exists_first_line {W : Nat} {name kind : List Char} (last : Placed)
    (hName : ∀ piece ∈ pieces name, measure piece < W) (hKind : measure kind < 10) :
    ∃ first further, pieces name = first :: further ∧ further.length = name.count '\n' ∧
      entryLines measure W 10 name kind last =
        lineText (firstLine measure W 10 first kind last) :: further.map Text.trimEnd ∧
      measure first < W ∧
      places measure 0 (firstLine measure W 10 first kind last) =
        [(first, 0, measure first), (kind, W, W + measure kind),
          (last.text, W + 10 + last.before, W + 10 + last.before + measure last.text)] := by
  obtain ⟨first, further, hPieces⟩ := List.exists_cons_of_ne_nil (Text.splitAll_ne_nil '\n' name)
  have hFirst : measure first < W := hName first (by rw [pieces, hPieces]; exact List.mem_cons_self)
  have hCount : further.length = name.count '\n' := by
    have hLength := Text.length_splitAll '\n' name
    rw [hPieces, List.length_cons] at hLength
    omega
  refine ⟨first, further, hPieces, hCount, ?_, hFirst,
    places_firstLine (Nat.le_of_lt hFirst) (Nat.le_of_lt hKind)⟩
  rw [entryLines, pieces, hPieces]

/-! ## Tasks -/

section Tasks

/-- The cells of a task. -/
def taskEntry (t : Task) : Entry where
  name := t.name.toList
  kind := t.type.name.toList
  last := enabledCell t.enabled
  kind_flat := flat_typeName t.type
  last_flat := flat_enabledCell t.enabled
  last_inked := endsInked_enabledCell t.enabled

variable (measure) in
/-- The titles of tasks on their line, if the second column starts at `W`. -/
def taskTitles (W : Nat) : List Placed :=
  firstLine measure W 10 "Name".toList "Type".toList ⟨0, "Enabled".toList, 0⟩

variable (measure) in
/-- A piece of a task's name, and the other cells of the task on the same line. -/
def taskLine (W : Nat) (t : Task) (piece : List Char) : List Placed :=
  firstLine measure W 10 piece t.type.name.toList ⟨0, enabledCell t.enabled, 0⟩

variable (measure) in
/-- The lines of a task. -/
def taskLines (W : Nat) (t : Task) : List (List Char) :=
  entryLines measure W 10 t.name.toList t.type.name.toList ⟨0, enabledCell t.enabled, 0⟩

/-- **All lines of the table of tasks.** -/
theorem splitAll_tasks (hMeasure : MeasuresPlain measure) (ts : List Task) :
    Text.splitAll '\n' (taskTable measure ts).toList =
      lineText (taskTitles measure (nameWidth measure 30 "Name" (ts.map Task.name))) ::
        ts.flatMap (taskLines measure (nameWidth measure 30 "Name" (ts.map Task.name))) :=
  splitAll_entries hMeasure 30 "Name" ⟨"Enabled", 10, false⟩ Task.name taskEntry ts (by decide)
    (by decide) ⟨"Enable".toList, 'd', by decide, by decide⟩ (fun _ => rfl)
    fun t => hMeasure.typeName t.type

end Tasks

/-! ## Recordings -/

section Recordings

/-- The cells of a recording. -/
def recordingEntry (r : Recording) : Entry where
  name := r.id.toList
  kind := r.type.name.toList
  last := sizeCell r.size.toInt
  kind_flat := flat_typeName r.type
  last_flat := (shows_sizeCell _).flat
  last_inked := (shows_sizeCell _).endsInked

variable (measure) in
/-- The width of a column of sizes, without the blank behind it. -/
def sizeWidth (rs : List Recording) : Nat :=
  max 14 (greatest (rs.map fun r => measure (sizeCell r.size.toInt)))

variable (measure) in
/-- The titles of recordings on their line, if the second column starts at `W` and sizes take `E` columns. -/
def recordingTitles (W E : Nat) : List Placed :=
  firstLine measure W 10 "ID".toList "Type".toList (atRight measure E "Size (MB)".toList)

variable (measure) in
/-- A piece of a recording's name, and the other cells of the recording on the same line. -/
def recordingLine (W E : Nat) (r : Recording) (piece : List Char) : List Placed :=
  firstLine measure W 10 piece r.type.name.toList (atRight measure E (sizeCell r.size.toInt))

variable (measure) in
/-- The lines of a recording. -/
def recordingLines (W E : Nat) (r : Recording) : List (List Char) :=
  entryLines measure W 10 r.id.toList r.type.name.toList (atRight measure E (sizeCell r.size.toInt))

theorem columnWidth_sizes (hMeasure : MeasuresPlain measure) (rs : List Recording) :
    columnWidth measure ⟨"Size (MB)", 15, true⟩
        ("Size (MB)".toList :: rs.map fun r => (recordingEntry r).last) = sizeWidth measure rs + 1 := by
  have hTitle : cellWidth measure "Size (MB)".toList = 9 := by
    rw [cellWidth_of_not_mem measure (by decide), hMeasure _ (by decide)]
    decide
  have hWidths : ("Size (MB)".toList :: rs.map fun r => (recordingEntry r).last).map
      (cellWidth measure) = 9 :: rs.map fun r => measure (sizeCell r.size.toInt) := by
    rw [List.map_cons, List.map_map, hTitle]
    exact congrArg _ (List.map_congr_left fun r _ =>
      cellWidth_of_not_mem measure (recordingEntry r).last_flat)
  have hGreatest (ns : List Nat) : max 15 (1 + greatest (9 :: ns)) = max 14 (greatest ns) + 1 := by
    show max 15 (1 + max 9 (greatest ns)) = _
    omega
  rw [columnWidth, hWidths]
  exact hGreatest _

theorem width_sizeCell_le {rs : List Recording} {r : Recording} (h : r ∈ rs) :
    measure (sizeCell r.size.toInt) ≤ sizeWidth measure rs := by
  have hMem := List.mem_map_of_mem (f := fun r : Recording => measure (sizeCell r.size.toInt)) h
  exact (le_greatest hMem).trans (Nat.le_max_right _ _)

/-- **All lines of the table of recordings.** -/
theorem splitAll_recordings (hMeasure : MeasuresPlain measure) (rs : List Recording) :
    Text.splitAll '\n' (recordingTable measure rs).toList =
      lineText (recordingTitles measure (nameWidth measure 40 "ID" (rs.map Recording.id))
          (sizeWidth measure rs)) ::
        rs.flatMap (recordingLines measure (nameWidth measure 40 "ID" (rs.map Recording.id))
          (sizeWidth measure rs)) := by
  have hLines := splitAll_entries hMeasure 40 "ID" ⟨"Size (MB)", 15, true⟩ Recording.id recordingEntry rs
    (by decide) (by decide) ⟨"Size (MB".toList, ')', by decide, by decide⟩ (fun _ => rfl)
    fun r => hMeasure.typeName r.type
  rw [columnWidth_sizes hMeasure] at hLines
  exact hLines

end Recordings

/-! ## Alignment -/

/-- **Tables lose nothing and stay aligned.** The lines of a table are its titles and the lines of each item, in
order. On its first line, an item has the first piece of its name and all other cells; each further piece of the
name is on a line alone. In the titles and in all items, the second column starts at the same place, and so does
the third column of tasks; sizes end at the same place. -/
theorem tables_aligned (hMeasure : MeasuresPlain measure) :
    (∀ ts : List Task,
      let W := nameWidth measure 30 "Name" (ts.map Task.name)
      Text.splitAll '\n' (taskTable measure ts).toList =
        lineText (taskTitles measure W) :: ts.flatMap (taskLines measure W) ∧
      places measure 0 (taskTitles measure W) =
        [("Name".toList, 0, 4), ("Type".toList, W, W + 4), ("Enabled".toList, W + 10, W + 17)] ∧
      ∀ t ∈ ts, ∃ first further, pieces t.name.toList = first :: further ∧
        further.length = t.name.toList.count '\n' ∧
        taskLines measure W t = lineText (taskLine measure W t first) :: further.map Text.trimEnd ∧
        measure first < W ∧
        places measure 0 (taskLine measure W t first) =
          [(first, 0, measure first), (t.type.name.toList, W, W + measure t.type.name.toList),
            (enabledCell t.enabled, W + 10, W + 10 + measure (enabledCell t.enabled))]) ∧
    ∀ rs : List Recording,
      let W := nameWidth measure 40 "ID" (rs.map Recording.id)
      let E := sizeWidth measure rs
      Text.splitAll '\n' (recordingTable measure rs).toList =
        lineText (recordingTitles measure W E) :: rs.flatMap (recordingLines measure W E) ∧
      places measure 0 (recordingTitles measure W E) =
        [("ID".toList, 0, 2), ("Type".toList, W, W + 4),
          ("Size (MB)".toList, W + 10 + (E - 9), W + 10 + E)] ∧
      ∀ r ∈ rs, ∃ first further, pieces r.id.toList = first :: further ∧
        further.length = r.id.toList.count '\n' ∧
        recordingLines measure W E r =
          lineText (recordingLine measure W E r first) :: further.map Text.trimEnd ∧
        measure first < W ∧
        places measure 0 (recordingLine measure W E r first) =
          [(first, 0, measure first), (r.type.name.toList, W, W + measure r.type.name.toList),
            (sizeCell r.size.toInt, W + 10 + (E - measure (sizeCell r.size.toInt)), W + 10 + E)] := by
  have hType : measure "Type".toList = 4 := hMeasure _ (by decide)
  constructor
  · intro ts W
    have hName : measure "Name".toList = 4 := hMeasure _ (by decide)
    have hEnabled : measure "Enabled".toList = 7 := hMeasure _ (by decide)
    have hRoom : 30 ≤ W := Nat.le_max_left _ _
    refine ⟨splitAll_tasks hMeasure ts, ?_, fun t ht => ?_⟩
    · rw [taskTitles, places_firstLine (by omega) (by omega), hName, hType, hEnabled]
      rfl
    · have hFits : ∀ piece ∈ pieces t.name.toList, measure piece < W := fun piece =>
        width_lt_nameWidth (List.mem_cons_of_mem _ (List.mem_map_of_mem ht))
      exact exists_first_line ⟨0, enabledCell t.enabled, 0⟩ hFits (hMeasure.typeName t.type)
  · intro rs W E
    have hId : measure "ID".toList = 2 := hMeasure _ (by decide)
    have hSize : measure "Size (MB)".toList = 9 := hMeasure _ (by decide)
    have hRoom : 40 ≤ W := Nat.le_max_left _ _
    have hSizeRoom : 14 ≤ E := Nat.le_max_left _ _
    refine ⟨splitAll_recordings hMeasure rs, ?_, fun r hr => ?_⟩
    · have hEnd : W + 10 + (E - 9) + 9 = W + 10 + E := by omega
      rw [recordingTitles, places_firstLine (by omega) (by omega), hId, hType, atRight, hSize, hEnd]
    · have hFits : ∀ piece ∈ pieces r.id.toList, measure piece < W := fun piece =>
        width_lt_nameWidth (List.mem_cons_of_mem _ (List.mem_map_of_mem hr))
      have hCell : measure (sizeCell r.size.toInt) ≤ E := width_sizeCell_le hr
      have hEnd : W + 10 + (E - measure (sizeCell r.size.toInt)) + measure (sizeCell r.size.toInt) =
          W + 10 + E := by omega
      have hLine := exists_first_line (atRight measure E (sizeCell r.size.toInt)) hFits
        (hMeasure.typeName r.type)
      simp only [atRight, hEnd] at hLine
      exact hLine

section

attribute [local instance] Text.Measure.byCharacters

/-- A name on two lines, and a size that is wider than what is asked for. -/
theorem tables_aligned_two_lines :
    let t : Task := ⟨"cpu 漢\nalert ", .stream, true⟩
    let r : Recording := ⟨"r1", .batch, Int64.minValue⟩
    MeasuresPlain Text.width ∧
      Text.splitAll '\n' (tasks .table [t]).toList =
        [lineText (taskTitles Text.width 30), lineText (taskLine Text.width 30 t "cpu 漢".toList),
          "alert".toList] ∧
      places Text.width 0 (recordingLine Text.width 40 17 r "r1".toList) =
        [("r1".toList, 0, 2), ("batcher".toList, 40, 47), ("-8796093022208.00".toList, 50, 67)] := by
  intro t r
  have hNames : nameWidth Text.width 30 "Name" [t.name] = 30 := by decide +kernel
  have hIds : nameWidth Text.width 40 "ID" [r.id] = 40 := by decide
  have hSizes : sizeWidth Text.width [r] = 17 := by decide
  obtain ⟨hText, -, hTasks⟩ := (tables_aligned measuresPlain_width).1 [t]
  obtain ⟨-, -, hRecordings⟩ := (tables_aligned measuresPlain_width).2 [r]
  simp only [List.map_cons, List.map_nil, hNames, hIds, hSizes] at hText hTasks hRecordings
  refine ⟨measuresPlain_width, ?_, ?_⟩
  · obtain ⟨first, further, hPieces, -, hLines, -⟩ := hTasks t List.mem_cons_self
    have hCut : pieces t.name.toList = ["cpu 漢".toList, "alert ".toList] := by decide
    obtain ⟨rfl, rfl⟩ := List.cons.inj (hCut.symm.trans hPieces)
    rw [List.flatMap_singleton, hLines] at hText
    exact hText
  · obtain ⟨first, further, hPieces, -, -, -, hPlaces⟩ := hRecordings r List.mem_cons_self
    have hCut : pieces r.id.toList = ["r1".toList] := by decide
    obtain ⟨rfl, rfl⟩ := List.cons.inj (hCut.symm.trans hPieces)
    rw [hPlaces]
    decide

end

end ControlClient.Listing
