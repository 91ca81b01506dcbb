import RouteBook.Proofs.Doc.Blocks
/-! # Empty lines in a comment

What becomes of a comment when empty lines are put between its lines (`Spaced`).  Its tags are the
same, since an empty line adds nothing to a tag.  The description is the free lines with the blanks
around them trimmed away, so an empty line changes it only if something of the description is in front
of that line and something behind it (`Interrupts`).  There, however, it does: the description is
longer by one line feed (`length_freeText_of_interrupts`), and no other empty line makes it shorter
again (`Spaced.freeText_sublist`).
-/
namespace RouteBook

open Text

namespace DocComment

theorem ofLines_eq_iff {as bs : List (List Char)} :
    ofLines as = ofLines bs ↔ tagsOf as = tagsOf bs ∧ freeText as = freeText bs := by
  constructor
  · intro same
    refine ⟨congrArg DocComment.tags same, ?_⟩
    have said := congrArg DocComment.description same
    unfold ofLines at said
    dsimp only at said
    split at said <;> split at said
    · simp_all
    · simp at said
    · simp at said
    · exact String.ofList_injective (Option.some.inj said)
  · rintro ⟨tags, said⟩
    rw [ofLines, ofLines, tags, said]

/-! ### Free lines and what follows them -/

theorem tagsOf_eq_nil_iff (lines : List (List Char)) :
    tagsOf lines = [] ↔ ∀ line ∈ lines, ¬OpensTag line := by
  induction lines with
  | nil => simp [tagsOf]
  | cons line lines ih =>
    by_cases opens : OpensTag line
    · obtain ⟨rest, rfl⟩ := List.head?_eq_some_iff.mp opens
      rw [tagsOf_opens]
      exact iff_of_false (List.cons_ne_nil _ _) fun plain => plain _ List.mem_cons_self opens
    · rw [tagsOf, (tagLine?_eq_none_iff line).mpr opens, List.forall_mem_cons]
      simpa [opens] using ih

variable {front : List (List Char)}

/-- In front of the first tag all lines are free. -/
theorem freeText_append_of_untagged (untagged : tagsOf front = []) (back : List (List Char)) :
    freeText (front ++ back) = trim (joinWith ['\n'] (front ++ freeLines back)) := by
  rw [freeText, freeLines_append ((tagsOf_eq_nil_iff front).mp untagged)]

theorem freeText_of_untagged (untagged : tagsOf front = []) :
    freeText front = trim (joinWith ['\n'] front) := by
  have all := freeText_append_of_untagged untagged []
  rwa [show freeLines [] = [] from rfl, List.append_nil] at all

/-- Behind a tag nothing is free. -/
theorem freeLines_append_of_tagged (tagged : tagsOf front ≠ []) (back : List (List Char)) :
    freeLines (front ++ back) = freeLines front := by
  induction front with
  | nil => exact absurd rfl tagged
  | cons line front ih =>
    by_cases opens : OpensTag line
    · obtain ⟨rest, rfl⟩ := List.head?_eq_some_iff.mp opens
      rw [List.cons_append, freeLines_opens, freeLines_opens]
    · rw [tagsOf, (tagLine?_eq_none_iff line).mpr opens] at tagged
      rw [List.cons_append, freeLines_cons opens, freeLines_cons opens, ih tagged]

theorem freeText_append_of_tagged (tagged : tagsOf front ≠ []) (back : List (List Char)) :
    freeText (front ++ back) = freeText front := by
  rw [freeText, freeLines_append_of_tagged tagged, freeText]

/-- Blank lines at the start are trimmed away. -/
theorem freeText_append_of_front (untagged : tagsOf front = []) (nothing : freeText front = [])
    (back : List (List Char)) : freeText (front ++ back) = freeText back := by
  rw [freeText_append_of_untagged untagged, freeText]
  rw [freeText_of_untagged untagged, trim_eq_nil_iff] at nothing
  by_cases hfront : front = []
  · rw [hfront, List.nil_append]
  by_cases hback : freeLines back = []
  · rw [hback, List.append_nil, (trim_eq_nil_iff _).mpr nothing]
    rfl
  · have blank := isBlankText_append (joinWith ['\n'] front) ['\n']
    rw [nothing, isBlankText_lineFeed] at blank
    rw [joinWith_append _ hfront hback, trim_append_of_isBlankText blank]

/-- Blank lines at the end are trimmed away. -/
theorem freeText_append_of_back (untagged : tagsOf front = []) {back : List (List Char)}
    (nothing : freeText back = []) : freeText (front ++ back) = freeText front := by
  rw [freeText_append_of_untagged untagged, freeText_of_untagged untagged]
  rw [freeText, trim_eq_nil_iff] at nothing
  by_cases hback : freeLines back = []
  · rw [hback, List.append_nil]
  by_cases hfront : front = []
  · rw [hfront, List.nil_append, (trim_eq_nil_iff _).mpr nothing]
    rfl
  · have blank := isBlankText_append ['\n'] (joinWith ['\n'] (freeLines back))
    rw [nothing, isBlankText_lineFeed] at blank
    rw [joinWith_append _ hfront hback, List.append_assoc, trim_of_append_isBlankText _ blank]

/-- What stands between two parts of the description: no tag is in front of it, something of the
description is, and there is more of it behind. -/
structure Interrupts (front back : List (List Char)) : Prop where
  untagged : tagsOf front = []
  said : freeText front ≠ []
  goesOn : freeText back ≠ []

/-- With something at both ends, the description is trimmed at its two ends only. -/
theorem Interrupts.freeText_append {back : List (List Char)} (h : Interrupts front back) :
    freeText (front ++ back) =
      trimStart (joinWith ['\n'] front) ++ ['\n'] ++
        trimEnd (joinWith ['\n'] (freeLines back)) := by
  obtain ⟨untagged, said, goesOn⟩ := h
  rw [freeText_of_untagged untagged, Ne, trim_eq_nil_iff, Bool.not_eq_true] at said
  rw [freeText, Ne, trim_eq_nil_iff, Bool.not_eq_true] at goesOn
  have hfront : front ≠ [] := fun none => by
    rw [none] at said
    cases said
  have hback : freeLines back ≠ [] := fun none => by
    rw [none] at goesOn
    cases goesOn
  rw [freeText_append_of_untagged untagged, joinWith_append _ hfront hback, trim_append said goesOn]

/-! ### One empty line -/

theorem freeLines_empty_cons (back : List (List Char)) :
    freeLines ([] :: back) = [] :: freeLines back := rfl

theorem freeText_empty_cons (back : List (List Char)) : freeText ([] :: back) = freeText back := by
  have first := @freeText_append_of_front [[]] rfl rfl back
  exact first

/-- An empty line at an end of the description, or behind a tag, changes nothing. -/
theorem freeText_of_not_interrupts {back : List (List Char)} (h : ¬Interrupts front back) :
    freeText (front ++ [] :: back) = freeText (front ++ back) := by
  by_cases untagged : tagsOf front = []
  · by_cases said : freeText front = []
    · rw [freeText_append_of_front untagged said, freeText_append_of_front untagged said,
        freeText_empty_cons]
    · have ends : freeText back = [] := Classical.byContradiction fun goesOn =>
        h ⟨untagged, said, goesOn⟩
      rw [freeText_append_of_back untagged ends,
        freeText_append_of_back untagged ((freeText_empty_cons back).trans ends)]
  · rw [freeText_append_of_tagged untagged, freeText_append_of_tagged untagged]

/-- **An empty line between two parts of the description is in it.** -/
theorem length_freeText_of_interrupts {back : List (List Char)} (h : Interrupts front back) :
    (freeText (front ++ [] :: back)).length = (freeText (front ++ back)).length + 1 := by
  have goesOn := h.goesOn
  rw [freeText, Ne, trim_eq_nil_iff, Bool.not_eq_true] at goesOn
  have more : freeLines back ≠ [] := fun none => by
    rw [none] at goesOn
    cases goesOn
  have spaced : Interrupts front ([] :: back) :=
    ⟨h.untagged, h.said, fun nothing => h.goesOn ((freeText_empty_cons back).symm.trans nothing)⟩
  rw [spaced.freeText_append, h.freeText_append, freeLines_empty_cons, joinWith_cons _ _ more, List.nil_append, trimEnd_append _ goesOn]
  simp only [List.length_append, List.length_singleton]
  omega

/-! ### Any number of empty lines -/

/-- The second list is the first one with empty lines put between its lines. -/
inductive Spaced : List (List Char) → List (List Char) → Prop
  | nil : Spaced [] []
  | keep {few all : List (List Char)} (line : List Char) :
      Spaced few all → Spaced (line :: few) (line :: all)
  | empty {few all : List (List Char)} : Spaced few all → Spaced few ([] :: all)

namespace Spaced

variable {few all : List (List Char)}

theorem refl (lines : List (List Char)) : Spaced lines lines := by
  induction lines with
  | nil => exact .nil
  | cons line lines ih => exact .keep line ih

theorem append {few' all' : List (List Char)} (h : Spaced few all) (h' : Spaced few' all') :
    Spaced (few ++ few') (all ++ all') := by
  induction h with
  | nil => exact h'
  | keep line _ ih => exact .keep line ih
  | empty _ ih => exact .empty ih

theorem sublist (h : Spaced few all) : few.Sublist all := by
  induction h with
  | nil => exact .slnil
  | keep line _ ih => exact .cons_cons line ih
  | empty _ ih => exact .cons [] ih

/-- What holds of an empty line holds of all lines if it holds of the few. -/
theorem forall_iff {motive : List Char → Prop} (hempty : motive []) (h : Spaced few all) :
    (∀ line ∈ few, motive line) ↔ ∀ line ∈ all, motive line := by
  induction h with
  | nil => rfl
  | keep line _ ih => rw [List.forall_mem_cons, List.forall_mem_cons, ih]
  | empty _ ih => rw [List.forall_mem_cons, ih, and_iff_right hempty]

/-- An empty line is free, so that the free lines end at the same line. -/
theorem freeLines (h : Spaced few all) :
    Spaced (DocComment.freeLines few) (DocComment.freeLines all) := by
  induction h with
  | nil => exact .nil
  | keep line h ih =>
    by_cases opens : OpensTag line
    · obtain ⟨rest, rfl⟩ := List.head?_eq_some_iff.mp opens
      rw [freeLines_opens, freeLines_opens]
      exact .nil
    · rw [freeLines_cons opens, freeLines_cons opens]
      exact .keep line ih
  | empty _ ih =>
    rw [freeLines_empty_cons]
    exact .empty ih

theorem flatMap_words (h : Spaced few all) : few.flatMap words = all.flatMap words := by
  induction h with
  | nil => rfl
  | keep line _ ih => rw [List.flatMap_cons, List.flatMap_cons, ih]
  | empty _ ih => rw [ih, List.flatMap_cons, words_nil, List.nil_append]

theorem foldl_addLine (h : Spaced few all) (tag : Tag) :
    few.foldl Tag.addLine tag = all.foldl Tag.addLine tag := by
  induction h generalizing tag with
  | nil => rfl
  | keep line _ ih => exact ih (tag.addLine line)
  | empty _ ih => exact ih tag

/-- **Empty lines add nothing to tags.** -/
theorem tagsOf_eq (h : Spaced few all) : tagsOf few = tagsOf all := by
  induction h with
  | nil => rfl
  | keep line h ih =>
    by_cases opens : OpensTag line
    · obtain ⟨rest, rfl⟩ := List.head?_eq_some_iff.mp opens
      rw [tagsOf_opens, tagsOf_opens, ih, h.freeLines.foldl_addLine]
    · rw [tagsOf, tagsOf, (tagLine?_eq_none_iff line).mpr opens]
      exact ih
  | empty _ ih => exact ih

/-- Empty lines take nothing away from the description. -/
theorem freeText_sublist (h : Spaced few all) : (freeText few).Sublist (freeText all) :=
  trimEnd_sublist (trimStart_sublist (joinWith_sublist _ h.freeLines.sublist))

/-- Empty lines make no description. -/
theorem freeText_eq_nil_iff (h : Spaced few all) : freeText few = [] ↔ freeText all = [] := by
  rw [freeText, freeText, trim_eq_nil_iff, trim_eq_nil_iff,
    isBlankText_joinWith_iff isBlankText_lineFeed, isBlankText_joinWith_iff isBlankText_lineFeed]
  exact h.freeLines.forall_iff rfl

/-- Empty lines do not interrupt the description, nor do they keep another one from it. -/
theorem interrupts_iff (h : Spaced few all) : Interrupts front few ↔ Interrupts front all := by
  constructor
  · rintro ⟨untagged, said, goesOn⟩
    exact ⟨untagged, said, fun nothing => goesOn (h.freeText_eq_nil_iff.mpr nothing)⟩
  · rintro ⟨untagged, said, goesOn⟩
    exact ⟨untagged, said, fun nothing => goesOn (h.freeText_eq_nil_iff.mp nothing)⟩

/-- Empty lines add no words to the description. -/
theorem words_freeText_eq (h : Spaced few all) :
    words (freeText few) = words (freeText all) := by
  rw [words_freeText, words_freeText, h.freeLines.flatMap_words]

end Spaced
end DocComment
end RouteBook
