import RouteBook.AsciiDoc.Markup
import RouteBook.Proofs.Text.Lines
/-! # Writing only adds

Blocks are written behind the content so far.  All but one do this by putting lines behind it
(`addLines_eq`); a paragraph also drops the mark at the end of its last line, and looks for that
mark at the end of all the content.  It never takes anything away that was there before: a paragraph
that is not blank has a line at least (`paragraphLines_ne_nil`), and the last of its own lines is
what the content ends with by then (`addLines_hardBreak`).  So what a block adds is the text of the
block, whatever it is written behind (`write_eq`).
-/
namespace RouteBook
namespace Markup

open Text

/-! ### Lines behind the content -/

theorem unlines_nil : unlines [] = "" := rfl

theorem unlines_cons (line : String) (lines : List String) :
    unlines (line :: lines) = line ++ "\n" ++ unlines lines := by
  rw [unlines, List.map_cons, String.join_cons, unlines]

theorem unlines_append (lines more : List String) :
    unlines (lines ++ more) = unlines lines ++ unlines more := by
  rw [unlines, List.map_append, String.join_append, unlines, unlines]

theorem addLines_eq (content : String) (lines : List String) :
    addLines content lines = content ++ unlines lines := by
  induction lines generalizing content with
  | nil => exact String.append_empty.symm
  | cons line lines ih =>
    show addLines (addLine content line) lines = _
    rw [ih, addLine, unlines_cons, String.append_assoc, String.append_assoc, String.append_assoc]

/-- The lines of what follows a line feed are lines of their own. -/
theorem splitAt_line (line rest : String) :
    splitAt '\n' (line ++ ("\n" ++ rest)).toList =
      splitAt '\n' line.toList ++ splitAt '\n' rest.toList := by
  have text : (line ++ ("\n" ++ rest)).toList = line.toList ++ '\n' :: rest.toList := by
    rw [String.toList_append, String.toList_append]
    rfl
  rw [text, splitAt_append_cons]

theorem splitAt_unlines (lines : List String) (rest : String) :
    splitAt '\n' (unlines lines ++ rest).toList =
      lines.flatMap (fun line => splitAt '\n' line.toList) ++ splitAt '\n' rest.toList := by
  induction lines with
  | nil => rw [unlines_nil, String.empty_append, List.flatMap_nil, List.nil_append]
  | cons line lines ih =>
    rw [unlines_cons, String.append_assoc, String.append_assoc, splitAt_line, ih,
      List.flatMap_cons, List.append_assoc]

/-! ### Lines of a paragraph -/

/-- The mark is dropped where it ends the content. -/
theorem trimHardBreak_append (content : String) :
    trimHardBreak (content ++ hardBreak ++ "\n") = content ++ "\n" := by
  have back : (content ++ hardBreak ++ "\n").toList.reverse =
      '\n' :: '+' :: ' ' :: content.toList.reverse := by
    rw [String.toList_append, String.toList_append, List.reverse_append, List.reverse_append]
    rfl
  unfold trimHardBreak
  rw [back]
  show String.ofList (content.toList.reverse.reverse ++ ['\n']) = _
  rw [List.reverse_reverse, String.ofList_append, String.ofList_toList]

theorem joined_cons_cons (sep first second : String) (rest : List String) :
    joined sep (first :: second :: rest) = first ++ sep ++ joined sep (second :: rest) := by
  show String.ofList (first.toList ++ sep.toList ++ joinWith sep.toList _) = _
  rw [String.ofList_append, String.ofList_append, String.ofList_toList, String.ofList_toList]
  rfl

theorem joined_singleton (sep line : String) : joined sep [line] = line := String.ofList_toList

/-- Lines written with a mark each are the lines with marks between them, and one mark more. -/
theorem addLines_hardBreak (content : String) {lines : List String} (ne : lines ≠ []) :
    addLines content (lines.map (· ++ hardBreak)) =
      content ++ joined (hardBreak ++ "\n") lines ++ hardBreak ++ "\n" := by
  rw [addLines_eq, String.append_assoc, String.append_assoc, String.append_right_inj]
  induction lines with
  | nil => exact absurd rfl ne
  | cons line lines ih =>
    rw [List.map_cons, unlines_cons]
    cases lines with
    | nil =>
      show line ++ hardBreak ++ "\n" ++ "" = _
      rw [joined_singleton, String.append_empty, String.append_assoc]
    | cons next rest =>
      rw [ih (List.cons_ne_nil next rest), joined_cons_cons]
      simp only [String.append_assoc]

/-- A text that is not blank has a line that is not. -/
theorem paragraphLines_ne_nil {text : List Char} (h : isBlankText text = false) :
    paragraphLines text ≠ [] := by
  obtain ⟨c, hc, visible⟩ := List.all_eq_false.mp h
  have visible : isBlank c = false := Bool.eq_false_iff.mpr visible
  have ends : c ≠ '\n' ∧ c ≠ '\r' := by
    constructor <;> rintro rfl <;> exact absurd visible (by decide)
  obtain ⟨line, hline, hmem⟩ := exists_mem_lines ends.1 ends.2 hc
  have shown : line ∈ (lines text).filter (!isBlankText ·) := by
    refine List.mem_filter.mpr ⟨hline, ?_⟩
    rw [Bool.not_eq_true', isBlankText, List.all_eq_false]
    exact ⟨c, hmem, by rw [visible]; exact Bool.false_ne_true⟩
  intro none_left
  have none_shown := List.map_eq_nil_iff.mp none_left
  rw [none_shown] at shown
  exact absurd shown List.not_mem_nil

/-- The lines of a paragraph are not empty, and are lines. -/
theorem paragraphLines_spec {text : List Char} {line : String} (h : line ∈ paragraphLines text) :
    line ≠ "" ∧ '\n' ∉ line.toList := by
  obtain ⟨shown, hshown, rfl⟩ := List.mem_map.mp h
  obtain ⟨hline, visible⟩ := List.mem_filter.mp hshown
  rw [String.toList_ofList]
  constructor
  · intro empty
    rw [Bool.not_eq_true', isBlankText, List.all_eq_false] at visible
    obtain ⟨c, hc, visible⟩ := visible
    have left := mem_trimEnd_of_not_isBlank (Bool.eq_false_iff.mpr visible) hc
    have nothing := congrArg String.toList empty
    rw [String.toList_ofList] at nothing
    rw [nothing] at left
    exact absurd left List.not_mem_nil
  · exact fun hmem => lineFeed_notMem_of_mem_lines hline (trimEnd_subset shown hmem)

/-- What is left of a paragraph is what is left of its text, unless that is blank. -/
theorem filter_trimmed (s : String) :
    ((some s).map trimmed).filter (· ≠ "") = if blank s then none else some (trimmed s) := by
  have nothing : trimmed s = "" ↔ blank s = true := by
    rw [trimmed, ← String.toList_inj, String.toList_ofList]
    exact trim_eq_nil_iff s.toList
  rw [Option.map_some, Option.filter_some]
  cases h : blank s with
  | true =>
    rw [nothing.mpr h]
    rfl
  | false =>
    have left : trimmed s ≠ "" := fun empty => by
      rw [nothing.mp empty] at h
      cases h
    rw [if_pos (decide_eq_true left)]
    rfl

theorem blockText_of_blank {s : String} (h : blank s = true) :
    blockText (.paragraph (some s)) = "" := by
  have nothing : trim s.toList = [] := (trim_eq_nil_iff s.toList).mpr h
  unfold blockText
  dsimp only [Option.getD_some]
  rw [nothing]
  rfl

/-- The text of a paragraph that is not blank: its lines, with a break between any two of them, and an
empty line. -/
theorem blockText_paragraph {s : String} (h : blank s = false) :
    paragraphLines (trim s.toList) ≠ [] ∧
      blockText (.paragraph (some s)) =
        joined (hardBreak ++ "\n") (paragraphLines (trim s.toList)) ++ "\n\n" := by
  obtain ⟨c, hc, visible⟩ := List.all_eq_false.mp h
  have visible : isBlank c = false := Bool.eq_false_iff.mpr visible
  have ne : paragraphLines (trim s.toList) ≠ [] := by
    refine paragraphLines_ne_nil (List.all_eq_false.mpr ⟨c, mem_trim_of_not_isBlank visible hc, ?_⟩)
    rw [visible]
    exact Bool.false_ne_true
  refine ⟨ne, ?_⟩
  unfold blockText
  dsimp only [Option.getD_some]
  cases lines : paragraphLines (trim s.toList) with
  | nil => exact absurd lines ne
  | cons line rest => rfl

theorem write_paragraph (content : String) (text : Option String) :
    write content (.paragraph text) = content ++ blockText (.paragraph text) := by
  cases text with
  | none => exact String.append_empty.symm
  | some s =>
    rw [write, filter_trimmed]
    cases h : blank s with
    | true =>
      rw [blockText_of_blank h]
      exact String.append_empty.symm
    | false =>
      obtain ⟨ne, text⟩ := blockText_paragraph h
      rw [text]
      show trimHardBreak (addLines content
        ((paragraphLines (trimmed s).toList).map (· ++ hardBreak))) ++ "\n" = _
      rw [trimmed, String.toList_ofList, addLines_hardBreak content ne, trimHardBreak_append,
        String.append_assoc, String.append_assoc]
      rfl

/-! ### Blocks -/

/-- **A block adds its text**, whatever it is written behind. -/
theorem write_eq (content : String) (block : Markup) :
    write content block = content ++ block.blockText := by
  cases block with
  | header name entries =>
    rw [write, blockText]
    simp only [addLine, addLines_eq, unlines_cons, String.append_assoc]
  | title level text =>
    rw [write, blockText, addLine]
    simp only [String.append_assoc]
    rfl
  | paragraph text => exact write_paragraph content text
  | listing language lines =>
    rw [write, blockText]
    simp only [addLine, addLines_eq, unlines_cons, unlines_append, unlines_nil,
      String.empty_append, String.append_assoc]
  | table names rows =>
    rw [write, blockText]
    cases rows with
    | nil => exact String.append_empty.symm
    | cons row rows =>
      rw [if_neg (by rw [List.isEmpty_cons]; exact Bool.false_ne_true),
        if_neg (by rw [List.isEmpty_cons]; exact Bool.false_ne_true)]
      simp only [addLine, addLines_eq, List.cons_append, unlines_cons, unlines_append,
        unlines_nil, String.empty_append, String.append_assoc]
  | line text => exact String.append_assoc
  | blankLine => rfl

/-- **A document is the texts of its blocks.** -/
theorem foldl_write_eq (content : String) (blocks : List Markup) :
    blocks.foldl write content = content ++ String.join (blocks.map blockText) := by
  induction blocks generalizing content with
  | nil => exact String.append_empty.symm
  | cons block blocks ih =>
    rw [List.foldl_cons, ih, write_eq, List.map_cons, String.join_cons, String.append_assoc]

/-- Of the lines that a paragraph is written on, only the last is empty. -/
theorem exists_splitAt_paragraph {lines : List String} (ne : lines ≠ [])
    (plain : ∀ line ∈ lines, line ≠ "" ∧ '\n' ∉ line.toList) :
    ∃ shown, splitAt '\n' (joined (hardBreak ++ "\n") lines ++ "\n\n").toList = shown ++ [[], []] ∧
      [] ∉ shown := by
  induction lines with
  | nil => exact absurd rfl ne
  | cons line lines ih =>
    obtain ⟨visible, single⟩ := plain line List.mem_cons_self
    cases lines with
    | nil =>
      refine ⟨[line.toList], ?_, ?_⟩
      · rw [joined_singleton, show "\n\n" = "\n" ++ "\n" from rfl, splitAt_line,
          splitAt_eq_singleton single]
        rfl
      · rw [List.mem_singleton]
        exact fun empty => visible (String.toList_eq_nil_iff.mp empty.symm)
    | cons next rest =>
      obtain ⟨shown, text, full⟩ := ih (List.cons_ne_nil next rest)
        fun line hline => plain line (List.mem_cons_of_mem _ hline)
      have broken : '\n' ∉ (line ++ hardBreak).toList := by
        rw [String.toList_append, List.mem_append]
        rintro (h | h)
        · exact single h
        · exact absurd h (by decide)
      refine ⟨(line ++ hardBreak).toList :: shown, ?_, ?_⟩
      · have apart : joined (hardBreak ++ "\n") (line :: next :: rest) ++ "\n\n" = line ++ hardBreak ++
            ("\n" ++ (joined (hardBreak ++ "\n") (next :: rest) ++ "\n\n")) := by
          rw [joined_cons_cons]
          simp only [String.append_assoc]
        rw [apart, splitAt_line, splitAt_eq_singleton broken, text]
        rfl
      · rw [List.mem_cons]
        rintro (empty | h)
        · rw [String.toList_append] at empty
          exact absurd (List.append_eq_nil_iff.mp empty.symm).2 (by decide)
        · exact full h

/-- **Writing only adds.**  What a block adds depends on nothing but the block, so that a document is
the texts of its blocks behind what there was before.  A paragraph that is not blank adds those of its
lines that are not blank, trimmed and with a break between any two of them, and one empty line; no
other of the lines that it adds is empty. -/
theorem write_only_adds :
    (∀ (content : String) (block : Markup), write content block = content ++ block.blockText) ∧
    (∀ (content : String) (blocks : List Markup),
      blocks.foldl write content = content ++ String.join (blocks.map blockText)) ∧
    ∀ content s : String, blank s = false →
      write content (.paragraph (some s)) =
        content ++ (joined " +\n" (paragraphLines (trim s.toList)) ++ "\n\n") ∧
      ∃ shown, splitAt '\n' (joined " +\n" (paragraphLines (trim s.toList)) ++ "\n\n").toList =
        shown ++ [[], []] ∧ [] ∉ shown := by
  refine ⟨write_eq, foldl_write_eq, fun content s visible => ?_⟩
  obtain ⟨ne, text⟩ := blockText_paragraph visible
  have shown := exists_splitAt_paragraph ne fun line => paragraphLines_spec
  refine ⟨?_, shown⟩
  rw [write_eq, text]
  rfl

/-- A mark at the end of what was written before stays, and so does one that the text itself has. -/
theorem write_behind_hardBreak :
    blank "first +\n \r\n second +" = false ∧
    write "before +\n" (.paragraph (some "first +\n \r\n second +")) =
      "before +\nfirst + +\n second +\n\n" := by
  have visible : blank "first +\n \r\n second +" = false := by decide
  obtain ⟨-, -, paragraph⟩ := write_only_adds
  obtain ⟨written, -⟩ := paragraph "before +\n" "first +\n \r\n second +" visible
  have lines : paragraphLines (trim "first +\n \r\n second +".toList) = ["first +", " second +"] := by
    decide +kernel
  rw [lines] at written
  exact ⟨visible, written⟩

end Markup
end RouteBook
