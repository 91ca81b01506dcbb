import RouteBook.Doc.Comment
import RouteBook.Proofs.Text.Lines
/-! # Tags on one line

What is filed under a tag may be spread over several lines of the comment, but it is put together with
blanks.  So whatever a comment says, the content of each of its tags is on one line
(`oneLine_of_mem_tags`).
-/
namespace RouteBook

open Text

namespace Tag

theorem splitWord_subset (cs : List Char) : (splitWord cs).1 ⊆ cs ∧ (splitWord cs).2 ⊆ cs := by
  have shown := subset_trim cs
  constructor
  · exact List.Subset.trans (List.takeWhile_subset _) shown
  · refine List.Subset.trans (subset_trim _) ?_
    exact List.Subset.trans (List.dropWhile_suffix _).subset shown

/-- A tag holds what is on its line. -/
theorem content_parse_subset (line : List Char) : (parse line).content.toList ⊆ line := by
  obtain ⟨-, rest⟩ := splitWord_subset line
  unfold parse
  dsimp only
  split
  · rw [String.toList_ofList]
    exact List.Subset.trans (splitWord_subset _).2 rest
  · rw [String.toList_ofList]
    exact rest

/-- The content is on one line. -/
def OneLine (tag : Tag) : Prop := '\n' ∉ tag.content.toList

theorem oneLine_parse {line : List Char} (h : '\n' ∉ line) : (parse line).OneLine :=
  fun hmem => h (content_parse_subset line hmem)

theorem OneLine.addLine {tag : Tag} (h : tag.OneLine) {line : List Char} (hline : '\n' ∉ line) :
    (tag.addLine line).OneLine := by
  unfold Tag.addLine
  split
  · exact h
  split
  · rwa [OneLine, String.toList_ofList]
  · rw [OneLine, String.toList_append, String.toList_append, List.mem_append, List.mem_append]
    rintro ((hold | blank) | hnew)
    · exact h hold
    · exact absurd blank (by decide)
    · rw [String.toList_ofList] at hnew
      exact hline hnew

theorem OneLine.addLines {tag : Tag} (h : tag.OneLine) {lines : List (List Char)}
    (hlines : ∀ line ∈ lines, '\n' ∉ line) : (lines.foldl Tag.addLine tag).OneLine := by
  induction lines generalizing tag with
  | nil => exact h
  | cons line lines ih =>
    obtain ⟨hline, hrest⟩ := List.forall_mem_cons.mp hlines
    exact ih (h.addLine hline) hrest

end Tag

namespace DocComment

theorem oneLine_of_mem_tagsOf {lines : List (List Char)} (h : ∀ line ∈ lines, '\n' ∉ line) :
    ∀ tag ∈ tagsOf lines, tag.OneLine := by
  induction lines with
  | nil => exact fun tag htag => absurd htag List.not_mem_nil
  | cons line lines ih =>
    obtain ⟨hline, hrest⟩ := List.forall_mem_cons.mp h
    rw [tagsOf]
    split
    · rename_i rest opens
      have hopen : '\n' ∉ rest := by
        unfold tagLine? at opens
        split at opens
        · cases opens
          exact fun hmem => hline (List.mem_cons_of_mem _ hmem)
        · cases opens
      have continued := (Tag.oneLine_parse hopen).addLines
        fun l hl => hrest l (List.takeWhile_subset (fun l => (tagLine? l).isNone) hl)
      exact List.forall_mem_cons.mpr ⟨continued, ih hrest⟩
    · exact ih hrest

/-- **Every tag of a comment is on one line.** -/
theorem oneLine_of_mem_tags {text : List Char} {tag : Tag} (h : tag ∈ (parse text).tags) :
    tag.OneLine := by
  refine oneLine_of_mem_tagsOf (fun line hline => ?_) tag h
  obtain ⟨piece, hpiece, rfl⟩ := List.mem_map.mp hline
  exact fun hmem => lineFeed_notMem_of_mem_lines hpiece (subset_trim piece hmem)

end DocComment
end RouteBook
