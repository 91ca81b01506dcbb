import RouteBook.Proofs.AsciiDoc.Bars
import RouteBook.Proofs.AsciiDoc.Writing
/-! # Reading a table back

A table stands between two fences, with its header on the first line and a row on each of the others.
Cells are escaped and written on one line; the names in the header are written as they are.

A row is read back iff none of its cells but the last ends with a backslash (`read_rowLine_cells_iff`):
the bar behind such a cell would be taken for a bar inside of it.  The header needs names without bars
and line feeds besides (`read_rowLine_names_iff`).  In a table of a single column, finally, a cell that
looks like the rest of a fence closes the table.  These are all the ways in which a table is not read
back (`table_reads_back_iff`).
-/
namespace RouteBook
namespace Markup

open Text

/-! ### Reading -/

/-- The lines between the first fence and the next one. -/
def fenced (fence : List Char) (lines : List (List Char)) : List (List Char) :=
  ((lines.dropWhile (· ≠ fence)).drop 1).takeWhile (· ≠ fence)

/-- The cells of a line. -/
def readCells (line : List Char) : List String := (readRow line).map String.ofList

/-- The cells of a table, line by line. -/
def readTable (text : String) : List (List String) :=
  (fenced tableFence.toList (splitAt '\n' text.toList)).map readCells

/-- A cell with blanks for line feeds. -/
def onOneLine (cell : String) : String :=
  String.ofList (cell.toList.map fun c => if c = '\n' then ' ' else c)

/-- The lines up to the next fence are all the lines before it. -/
theorem fenced_eq {fence : List Char} {before body after : List (List Char)} (h : fence ∉ before) :
    fenced fence (before ++ fence :: (body ++ fence :: after)) = body.takeWhile (· ≠ fence) := by
  have stops : (fence :: after).takeWhile (· ≠ fence) = [] :=
    List.takeWhile_cons_of_neg (by simp)
  have opened : (before ++ fence :: (body ++ fence :: after)).dropWhile (· ≠ fence) =
      fence :: (body ++ fence :: after) := by
    rw [List.dropWhile_append_of_pos fun line hline => ?_, List.dropWhile_cons_of_neg (by simp)]
    exact decide_eq_true fun same => h (same ▸ hline)
  rw [fenced, opened, List.drop_one, List.tail_cons, List.takeWhile_append, stops, List.append_nil]
  split
  · rename_i all
    exact ((List.takeWhile_prefix _).eq_of_length all).symm
  · rfl

/-! ### The lines of a table -/

theorem toList_rowLine (cells : List String) :
    (rowLine cells).toList = rowChars (cells.map String.toList) := by
  induction cells with
  | nil => rfl
  | cons cell cells ih =>
    rw [rowLine, List.map_cons, String.join_cons, String.toList_append, String.toList_append]
    exact congrArg (['|'] ++ cell.toList ++ ·) ih

theorem toList_cellText (cell : String) :
    (cellText cell).toList = escapeBars (onOneLine cell).toList := by
  rw [cellText, onOneLine, String.toList_ofList, String.toList_ofList]
  induction cell.toList with
  | nil => rfl
  | cons c cs ih =>
    rw [List.flatMap_cons, List.map_cons, ih]
    by_cases bar : c = '|'
    · subst bar
      rfl
    · by_cases lineFeed : c = '\n'
      · subst lineFeed
        rfl
      · rw [if_neg bar, if_neg lineFeed, if_neg lineFeed, escapeBars_cons bar]
        rfl

/-- The texts of the cells of a row are its escaped cells. -/
theorem toList_rowLine_cells (row : List String) :
    (rowLine (row.map cellText)).toList =
      rowChars ((row.map fun cell => (onOneLine cell).toList).map escapeBars) := by
  rw [toList_rowLine, List.map_map, List.map_map]
  exact congrArg rowChars (List.map_congr_left fun cell _ => toList_cellText cell)

theorem lineFeed_notMem_onOneLine (cell : String) : '\n' ∉ (onOneLine cell).toList := by
  rw [onOneLine, String.toList_ofList]
  intro h
  obtain ⟨c, -, hc⟩ := List.mem_map.mp h
  split at hc
  · exact absurd hc (by decide)
  · rename_i other
    exact other hc

theorem lineFeed_notMem_rowChars {texts : List (List Char)} (h : ∀ text ∈ texts, '\n' ∉ text) :
    '\n' ∉ rowChars texts := by
  intro hmem
  obtain ⟨text, htext, hc⟩ := List.mem_flatMap.mp hmem
  rcases List.mem_cons.mp hc with hc | hc
  · exact absurd hc (by decide)
  · exact h text htext hc

theorem lineFeed_notMem_rowLine_cells (row : List String) :
    '\n' ∉ (rowLine (row.map cellText)).toList := by
  rw [toList_rowLine_cells]
  refine lineFeed_notMem_rowChars fun text htext hc => ?_
  obtain ⟨cell, hcell, rfl⟩ := List.mem_map.mp htext
  obtain ⟨cell, -, rfl⟩ := List.mem_map.mp hcell
  rcases mem_escapeBars hc with hc | hc
  · exact absurd hc (by decide)
  · exact lineFeed_notMem_onOneLine cell hc

theorem optionsLine_eq (columns : Nat) :
    (optionsLine columns).toList =
      "[options=\"header\",cols=\"".toList ++ ((toString columns).toList ++ "\"]".toList) := by
  unfold optionsLine
  rw [String.toList_append, String.toList_append, List.append_assoc]

theorem lineFeed_notMem_optionsLine (columns : Nat) : '\n' ∉ (optionsLine columns).toList := by
  rw [optionsLine_eq, List.mem_append, List.mem_append]
  rintro (h | h | h)
  · exact absurd h (by decide)
  · rw [Nat.toString_eq_repr, Nat.toList_repr] at h
    exact lineFeed_notMem_toDigits columns h
  · exact absurd h (by decide)

theorem tableFence_ne_optionsLine (columns : Nat) :
    tableFence.toList ≠ (optionsLine columns).toList := by
  intro same
  have first := congrArg List.head? same
  rw [optionsLine_eq, List.head?_append] at first
  exact absurd (Option.some.inj first) (by decide)

/-- The lines of a table between its fences. -/
def tableBody (names : List String) (rows : List (List String)) : List (List Char) :=
  splitAt '\n' (rowLine names).toList ++ rows.map fun row => (rowLine (row.map cellText)).toList

theorem flatMap_splitAt_rowLine (rows : List (List String)) :
    (rows.map fun row => rowLine (row.map cellText)).flatMap
        (fun line => splitAt '\n' line.toList) =
      rows.map fun row => (rowLine (row.map cellText)).toList := by
  induction rows with
  | nil => rfl
  | cons row rows ih =>
    rw [List.map_cons, List.flatMap_cons, ih,
      splitAt_eq_singleton (lineFeed_notMem_rowLine_cells row)]
    rfl

/-- **A table is read up to the first line that is a fence.** -/
theorem readTable_blockText (names : List String) {rows : List (List String)} (ne : rows ≠ []) :
    readTable (blockText (.table names rows)) =
      ((tableBody names rows).takeWhile (· ≠ tableFence.toList)).map readCells := by
  have shown : rows.isEmpty = false := by rwa [← Bool.not_eq_true, List.isEmpty_iff]
  have lines : splitAt '\n' (blockText (.table names rows)).toList =
      [(optionsLine names.length).toList] ++ tableFence.toList ::
        (tableBody names rows ++ tableFence.toList :: [[], []]) := by
    rw [blockText, shown, if_neg Bool.false_ne_true, splitAt_unlines, List.flatMap_append,
      List.flatMap_cons, List.flatMap_cons, List.flatMap_cons, flatMap_splitAt_rowLine,
      splitAt_eq_singleton (lineFeed_notMem_optionsLine _), tableBody]
    simp only [List.append_assoc]
    rfl
  have apart : tableFence.toList ∉ [(optionsLine names.length).toList] := by
    rw [List.mem_singleton]
    exact tableFence_ne_optionsLine _
  rw [readTable, lines, fenced_eq apart]

/-! ### Rows by themselves -/

theorem readCells_eq_iff {line : List Char} {cells : List String} :
    readCells line = cells ↔ readRow line = cells.map String.toList := by
  unfold readCells
  constructor
  · rintro rfl
    rw [List.map_map]
    exact (List.map_id'' (fun _ => String.toList_ofList) _).symm
  · intro read
    rw [read, List.map_map]
    exact List.map_id'' (fun _ => String.ofList_toList) cells

theorem getLast?_onOneLine (cell : String) :
    (onOneLine cell).toList.getLast? = some '\\' ↔ cell.toList.getLast? = some '\\' := by
  rw [onOneLine, String.toList_ofList, List.getLast?_map, Option.map_eq_some_iff]
  constructor
  · rintro ⟨c, last, backslash⟩
    split at backslash
    · exact absurd backslash (by decide)
    · rw [last, backslash]
  · exact fun last => ⟨'\\', last, rfl⟩

/-- **The names in the header are read back** iff none of them holds a bar and none but the last ends
with a backslash. -/
theorem read_rowLine_names_iff {names : List String} :
    readCells (rowLine names).toList = names ↔
      (∀ name ∈ names, '|' ∉ name.toList) ∧
        ∀ name ∈ names.dropLast, name.toList.getLast? ≠ some '\\' := by
  rw [readCells_eq_iff, toList_rowLine, readRow_plain_iff, ← List.map_dropLast, List.forall_mem_map,
    List.forall_mem_map]

/-- **The cells of a row are read back**, on one line each, iff none but the last ends with a
backslash. -/
theorem read_rowLine_cells_iff {row : List String} :
    readCells (rowLine (row.map cellText)).toList = row.map onOneLine ↔
      ∀ cell ∈ row.dropLast, cell.toList.getLast? ≠ some '\\' := by
  have cells : (row.map onOneLine).map String.toList = row.map fun cell => (onOneLine cell).toList :=
    List.map_map
  rw [readCells_eq_iff, toList_rowLine_cells, cells, readRow_escaped_iff, ← List.map_dropLast,
    List.forall_mem_map]
  exact forall₂_congr fun cell _ => not_congr (getLast?_onOneLine cell)

/-! ### Rows that look like a fence -/

theorem readCells_fence : readCells tableFence.toList = ["==="] := by decide +kernel

/-- A cell without blanks is what is read of it. -/
theorem eq_of_onOneLine {cell text : String} (read : onOneLine cell = text)
    (h : ' ' ∉ text.toList) : cell = text := by
  subst read
  rw [onOneLine, String.toList_ofList, List.mem_map] at h
  have same : cell.toList.map (fun c => if c = '\n' then ' ' else c) = cell.toList := by
    refine (List.map_congr_left fun c hc => ?_).trans (List.map_id _)
    exact if_neg fun lineFeed => h ⟨c, hc, if_pos lineFeed⟩
  rw [onOneLine, same, String.ofList_toList]

/-- A row that is read back looks like a fence iff it has a single cell of three equals signs. -/
theorem rowLine_cells_eq_fence_iff {row : List String}
    (back : readCells (rowLine (row.map cellText)).toList = row.map onOneLine) :
    (rowLine (row.map cellText)).toList = tableFence.toList ↔ row = ["==="] := by
  constructor
  · intro fence
    rw [fence, readCells_fence] at back
    obtain ⟨cell, rfl, read⟩ := List.map_eq_singleton_iff.mp back.symm
    rw [eq_of_onOneLine read (by decide)]
  · rintro rfl
    decide +kernel

theorem rowLine_names_eq_fence_iff {names : List String}
    (back : readCells (rowLine names).toList = names) :
    (rowLine names).toList = tableFence.toList ↔ names = ["==="] := by
  constructor
  · intro fence
    rw [← back, fence, readCells_fence]
  · rintro rfl
    decide +kernel

/-! ### Tables -/

/-- The names and cells of a table that do not get in the way of reading it. -/
structure ReadsBack (names : List String) (rows : List (List String)) : Prop where
  /-- The names are not escaped, and stand on the first line. -/
  names_plain : ∀ name ∈ names, '|' ∉ name.toList ∧ '\n' ∉ name.toList
  /-- A backslash at the end of a cell would escape the bar behind it. -/
  ends : ∀ row ∈ names :: rows, ∀ cell ∈ row.dropLast, cell.toList.getLast? ≠ some '\\'
  /-- The line of such a row would close the table. -/
  no_fence : ["==="] ∉ names :: rows

theorem tableBody_eq {names : List String} (free : ∀ name ∈ names, '\n' ∉ name.toList)
    (rows : List (List String)) :
    tableBody names rows =
      (rowLine names).toList :: rows.map fun row => (rowLine (row.map cellText)).toList := by
  have single : '\n' ∉ (rowLine names).toList := by
    rw [toList_rowLine]
    exact lineFeed_notMem_rowChars (List.forall_mem_map.mpr free)
  rw [tableBody, splitAt_eq_singleton single]
  rfl

/-- Names that are read off one line hold no line feed. -/
theorem lineFeed_notMem_of_read {names : List String} {line : List Char} (h : '\n' ∉ line)
    (read : readCells line = names) : ∀ name ∈ names, '\n' ∉ name.toList := by
  intro name hname hmem
  have cell := List.mem_map_of_mem (f := String.toList) hname
  rw [← readCells_eq_iff.mp read] at cell
  exact h (subset_of_mem_readRow cell hmem)

/-- Where a table is read back, its names stand on one line. -/
theorem lineFeed_notMem_names {names : List String} {rows cells : List (List String)}
    (read : ((tableBody names rows).takeWhile (· ≠ tableFence.toList)).map readCells =
      names :: cells) : ∀ name ∈ names, '\n' ∉ name.toList := by
  obtain ⟨line, more, lines⟩ := exists_splitAt_eq_cons '\n' (rowLine names).toList
  have single : '\n' ∉ line := notMem_of_mem_splitAt (lines ▸ List.mem_cons_self)
  rw [tableBody, lines, List.cons_append, List.takeWhile_cons] at read
  split at read
  · exact lineFeed_notMem_of_read single (List.cons.inj read).1
  · cases read

/-- A text for each of the lines is read iff none of them is a fence, and each gives its text. -/
theorem read_takeWhile_iff {fence : List Char} {lines : List (List Char)}
    {cells : List (List String)} (number : lines.length = cells.length) :
    (lines.takeWhile (· ≠ fence)).map readCells = cells ↔
      fence ∉ lines ∧ lines.map readCells = cells := by
  constructor
  · intro read
    have whole : lines.takeWhile (· ≠ fence) = lines := by
      refine (List.takeWhile_prefix _).eq_of_length ?_
      rw [number, ← read, List.length_map]
    rw [whole] at read
    refine ⟨fun hmem => ?_, read⟩
    have all : (lines.takeWhile (· ≠ fence)).all (· ≠ fence) = true := List.all_takeWhile
    rw [whole] at all
    exact of_decide_eq_true (List.all_eq_true.mp all fence hmem) rfl
  · rintro ⟨h, read⟩
    have whole : (lines ++ []).takeWhile (· ≠ fence) = lines ++ [].takeWhile (· ≠ fence) :=
      List.takeWhile_append_of_pos fun line hline => decide_eq_true fun same => h (same ▸ hline)
    rw [List.append_nil, List.takeWhile_nil, List.append_nil] at whole
    rw [whole, read]

/-- A table with its names on one line is read back iff nothing in it gets in the way. -/
theorem read_tableBody_iff_of_free {names : List String} {rows : List (List String)}
    (free : ∀ name ∈ names, '\n' ∉ name.toList) :
    ((tableBody names rows).takeWhile (· ≠ tableFence.toList)).map readCells =
      names :: rows.map (·.map onOneLine) ↔ ReadsBack names rows := by
  have number : (tableBody names rows).length = (names :: rows.map (·.map onOneLine)).length := by
    rw [tableBody_eq free, List.length_cons, List.length_cons, List.length_map, List.length_map]
  rw [read_takeWhile_iff number, tableBody_eq free, List.map_cons, List.map_map, List.cons.injEq,
    List.map_inj_left, List.mem_cons, not_or]
  constructor
  · rintro ⟨⟨first_no_fence, rows_no_fence⟩, first, others⟩
    obtain ⟨plain, ends⟩ := read_rowLine_names_iff.mp first
    refine ⟨fun name hname => ⟨plain name hname, free name hname⟩, ?_, ?_⟩
    · rw [List.forall_mem_cons]
      exact ⟨ends, fun row hrow => read_rowLine_cells_iff.mp (others row hrow)⟩
    · rw [List.mem_cons]
      rintro (same | hrow)
      · exact first_no_fence ((rowLine_names_eq_fence_iff first).mpr same.symm).symm
      · refine rows_no_fence (List.mem_map.mpr ⟨_, hrow, ?_⟩)
        exact (rowLine_cells_eq_fence_iff (others _ hrow)).mpr rfl
  · rintro ⟨plain, ends, no_fence⟩
    rw [List.forall_mem_cons] at ends
    rw [List.mem_cons, not_or] at no_fence
    have first : readCells (rowLine names).toList = names :=
      read_rowLine_names_iff.mpr ⟨fun name hname => (plain name hname).1, ends.1⟩
    have others : ∀ row ∈ rows, readCells (rowLine (row.map cellText)).toList = row.map onOneLine :=
      fun row hrow => read_rowLine_cells_iff.mpr (ends.2 row hrow)
    refine ⟨⟨fun fence => ?_, fun fence => ?_⟩, first, others⟩
    · exact no_fence.1 ((rowLine_names_eq_fence_iff first).mp fence.symm).symm
    · obtain ⟨row, hrow, fence⟩ := List.mem_map.mp fence
      rw [(rowLine_cells_eq_fence_iff (others row hrow)).mp fence] at hrow
      exact no_fence.2 hrow

theorem read_tableBody_iff {names : List String} {rows : List (List String)} :
    ((tableBody names rows).takeWhile (· ≠ tableFence.toList)).map readCells =
      names :: rows.map (·.map onOneLine) ↔ ReadsBack names rows := by
  constructor
  · intro read
    exact (read_tableBody_iff_of_free (lineFeed_notMem_names read)).mp read
  · intro back
    exact (read_tableBody_iff_of_free fun name hname => (back.names_plain name hname).2).mpr back

/-- **A table gives its cells back**, with blanks for the line feeds in the rows, iff nothing in it
gets in the way: no name has a bar or a line feed, no cell but the last of its row ends with a
backslash, and no row of a single cell looks like a fence. -/
theorem table_reads_back_iff (content : String) (names : List String) (rows : List (List String))
    (ne : rows ≠ []) :
    ∃ added, write content (.table names rows) = content ++ added ∧
      (readTable added = names :: rows.map (·.map onOneLine) ↔ ReadsBack names rows) := by
  refine ⟨blockText (.table names rows), write_eq content _, ?_⟩
  rw [readTable_blockText names ne, read_tableBody_iff]

/-- Bars, line feeds, backslashes inside of a cell and at the end of a row are no harm. -/
theorem remarks_read_back :
    [["a|b", "one\ntwo"], ["c:\\temp", "d:\\"]] ≠ [] ∧
    ∃ added, write "" (.table ["Key", "Remark"] [["a|b", "one\ntwo"], ["c:\\temp", "d:\\"]]) =
        "" ++ added ∧
      readTable added = [["Key", "Remark"], ["a|b", "one two"], ["c:\\temp", "d:\\"]] := by
  have ne : [["a|b", "one\ntwo"], ["c:\\temp", "d:\\"]] ≠ [] := List.cons_ne_nil _ _
  obtain ⟨added, written, back⟩ := table_reads_back_iff "" ["Key", "Remark"] _ ne
  have spared : ReadsBack ["Key", "Remark"] [["a|b", "one\ntwo"], ["c:\\temp", "d:\\"]] :=
    ⟨by decide, by decide, by decide⟩
  refine ⟨ne, added, written, (back.mpr spared).trans ?_⟩
  decide +kernel

/-- **A bar in a name gives a column too many**: the cells are escaped, but the header is not. -/
theorem bar_splits_name :
    ¬ ∀ (content : String) (names : List String) (rows : List (List String)), rows ≠ [] →
      (∀ row ∈ rows, row.length = names.length) →
      ∃ added, write content (.table names rows) = content ++ added ∧
        readTable added = names :: rows.map (·.map onOneLine) := by
  intro reads
  obtain ⟨added, written, back⟩ := reads "" ["a|b"] [["x"]] (List.cons_ne_nil _ _) (by decide)
  rw [write_eq, String.append_right_inj] at written
  subst written
  exact absurd back (by decide +kernel)

end Markup
end RouteBook
