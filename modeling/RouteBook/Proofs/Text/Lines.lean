import RouteBook.Proofs.Text.Pieces
/-! # The lines of a text

A line of a text is a piece between two line feeds, perhaps without the carriage return at its end.
So a line holds no line feed, and what a piece holds besides a carriage return is in its line as
well: no character of a text but those that end its lines is missing from all of its lines
(`exists_mem_lines`).
-/
namespace RouteBook
namespace Text

theorem dropCarriageReturn_subset (piece : List Char) : dropCarriageReturn piece ⊆ piece := by
  unfold dropCarriageReturn
  split
  · exact List.dropLast_subset piece
  · exact List.Subset.refl piece

theorem mem_dropCarriageReturn {c : Char} (h : c ≠ '\r') {piece : List Char} (hc : c ∈ piece) :
    c ∈ dropCarriageReturn piece := by
  unfold dropCarriageReturn
  split
  · rename_i hlast
    obtain ⟨front, rfl⟩ := List.getLast?_eq_some_iff.mp hlast
    rw [List.dropLast_concat]
    exact (List.mem_append.mp hc).resolve_right fun hr => h (List.mem_singleton.mp hr)
  · exact hc

/-- The lines of a text, read off its pieces: only the last piece may be no line. -/
theorem lines_of_splitAt {cs : List Char} {front : List (List Char)} {last : List Char}
    (h : splitAt '\n' cs = front ++ [last]) :
    lines cs = front.map dropCarriageReturn ++ [last].filter (· ≠ []) := by
  unfold lines
  dsimp only
  rw [h, List.dropLast_concat, List.getLast?_concat]
  cases last with
  | nil => exact (List.append_nil _).symm
  | cons c last => rfl

theorem exists_splitAt_eq_concat (sep : Char) (cs : List Char) :
    ∃ front last, splitAt sep cs = front ++ [last] :=
  ⟨_, _, (List.dropLast_concat_getLast (splitAt_ne_nil sep cs)).symm⟩

/-- A line is a piece, or a piece without the carriage return at its end. -/
theorem exists_piece_of_mem_lines {cs line : List Char} (h : line ∈ lines cs) :
    ∃ piece ∈ splitAt '\n' cs, line = piece ∨ line = dropCarriageReturn piece := by
  obtain ⟨front, last, hs⟩ := exists_splitAt_eq_concat '\n' cs
  rw [lines_of_splitAt hs, List.mem_append] at h
  rw [hs]
  rcases h with h | h
  · obtain ⟨piece, hpiece, rfl⟩ := List.mem_map.mp h
    exact ⟨piece, List.mem_append_left _ hpiece, .inr rfl⟩
  · exact ⟨line, List.mem_append_right _ (List.mem_filter.mp h).1, .inl rfl⟩

theorem lineFeed_notMem_of_mem_lines {cs line : List Char} (h : line ∈ lines cs) : '\n' ∉ line := by
  obtain ⟨piece, hpiece, rfl | rfl⟩ := exists_piece_of_mem_lines h
  · exact notMem_of_mem_splitAt hpiece
  · exact fun hmem => notMem_of_mem_splitAt hpiece (dropCarriageReturn_subset piece hmem)

/-- Every character but the separator is in one of the pieces. -/
theorem exists_mem_splitAt {sep c : Char} (h : c ≠ sep) {cs : List Char} (hc : c ∈ cs) :
    ∃ piece ∈ splitAt sep cs, c ∈ piece := by
  rw [← joinWith_splitAt sep cs] at hc
  exact (mem_of_mem_joinWith hc).resolve_left fun hsep => h (List.mem_singleton.mp hsep)

/-- **Every character but those that end lines is in one of the lines.** -/
theorem exists_mem_lines {c : Char} (lineFeed : c ≠ '\n') (carriageReturn : c ≠ '\r')
    {cs : List Char} (hc : c ∈ cs) : ∃ line ∈ lines cs, c ∈ line := by
  obtain ⟨piece, hpiece, hmem⟩ := exists_mem_splitAt lineFeed hc
  obtain ⟨front, last, hs⟩ := exists_splitAt_eq_concat '\n' cs
  rw [lines_of_splitAt hs]
  rw [hs, List.mem_append, List.mem_singleton] at hpiece
  rcases hpiece with hfront | rfl
  · exact ⟨_, List.mem_append_left _ (List.mem_map_of_mem hfront),
      mem_dropCarriageReturn carriageReturn hmem⟩
  · refine ⟨piece, List.mem_append_right _ (List.mem_filter.mpr ⟨List.mem_singleton_self _, ?_⟩),
      hmem⟩
    exact decide_eq_true (List.ne_nil_of_mem hmem)

/-- A number is written on one line. -/
theorem lineFeed_notMem_toDigits (n : Nat) : '\n' ∉ Nat.toDigits 10 n := by
  intro h
  have digit := Nat.isDigit_of_mem_toDigits (by decide) (by decide) h
  exact absurd digit (by decide)

/-! ### Trimming at the end -/

theorem trimEnd_subset (cs : List Char) : trimEnd cs ⊆ cs := fun _ hc =>
  List.mem_reverse.mp ((List.dropWhile_suffix isBlank).subset (List.mem_reverse.mp hc))

theorem mem_trimEnd_of_not_isBlank {c : Char} (h : isBlank c = false) {cs : List Char}
    (hc : c ∈ cs) : c ∈ trimEnd cs :=
  List.mem_reverse.mpr (mem_dropWhile_of_not_isBlank h (List.mem_reverse.mpr hc))

end Text
end RouteBook
