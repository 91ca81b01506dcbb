import RouteBook.Proofs.Text.Pieces
/-! # Blanks around a text

Trimming takes a text apart into the blanks at its front, what is left of it, and the blanks at its
back (`exists_blanks_around`).  So further blanks at either end are of no account
(`trim_append_of_isBlankText`), and of two texts one behind the other, with something in each of them,
the first is trimmed at its front and the second one at its back (`trim_append`).

Lines are joined by a blank character.  What is joined is blank iff all its lines are, and a list with
fewer lines leaves no more than the whole list does (`trimEnd_sublist`, `joinWith_sublist`).
-/
namespace RouteBook
namespace Text

variable {front back : List Char}

theorem isBlankText_append (as bs : List Char) :
    isBlankText (as ++ bs) = (isBlankText as && isBlankText bs) := List.all_append

/-! ### One end at a time -/

theorem trimStart_append_of_isBlankText (h : isBlankText front = true) (cs : List Char) :
    trimStart (front ++ cs) = trimStart cs :=
  List.dropWhile_append_of_pos (List.all_eq_true.mp h)

theorem trimStart_eq_nil_iff (cs : List Char) : trimStart cs = [] ↔ isBlankText cs = true := by
  constructor
  · intro h
    refine (trim_eq_nil_iff cs).mp ?_
    rw [trim, h]
    rfl
  · intro h
    have dropped := trimStart_append_of_isBlankText h []
    rwa [List.append_nil] at dropped

theorem trimEnd_append_of_isBlankText (cs : List Char) (h : isBlankText back = true) :
    trimEnd (cs ++ back) = trimEnd cs := by
  have dropped : ∀ c ∈ back.reverse, isBlank c = true := fun c hc =>
    List.all_eq_true.mp h c (List.mem_reverse.mp hc)
  rw [trimEnd, List.reverse_append, List.dropWhile_append_of_pos dropped, trimEnd]

/-- Nothing is trimmed off the front behind a character that is no blank. -/
theorem trimStart_append {as : List Char} (h : isBlankText as = false) (bs : List Char) :
    trimStart (as ++ bs) = trimStart as ++ bs := by
  have left : trimStart as ≠ [] := fun none => by
    rw [(trimStart_eq_nil_iff as).mp none] at h
    cases h
  rw [trimStart, List.dropWhile_append, if_neg (by simpa [trimStart] using left), trimStart]

/-- Nothing is trimmed off the back in front of a character that is no blank. -/
theorem trimEnd_append (as : List Char) {bs : List Char} (h : isBlankText bs = false) :
    trimEnd (as ++ bs) = as ++ trimEnd bs := by
  have visible : isBlankText bs.reverse = false := by
    rw [← h, isBlankText, isBlankText, List.all_reverse]
  have start := trimStart_append visible as.reverse
  unfold trimStart at start
  rw [trimEnd, List.reverse_append, start, List.reverse_append, List.reverse_reverse, trimEnd]

/-! ### Both ends -/

theorem trim_append_of_isBlankText (h : isBlankText front = true) (cs : List Char) :
    trim (front ++ cs) = trim cs := by
  rw [trim, trimStart_append_of_isBlankText h, trim]

theorem trim_of_append_isBlankText (cs : List Char) (h : isBlankText back = true) :
    trim (cs ++ back) = trim cs := by
  cases visible : isBlankText cs with
  | true => rw [trim_append_of_isBlankText visible, (trim_eq_nil_iff cs).mpr visible,
      (trim_eq_nil_iff back).mpr h]
  | false => rw [trim, trimStart_append visible, trimEnd_append_of_isBlankText _ h, trim]

/-- Blanks at both ends are of no account. -/
theorem trim_around (hfront : isBlankText front = true) (cs : List Char)
    (hback : isBlankText back = true) : trim (front ++ cs ++ back) = trim cs := by
  rw [trim_of_append_isBlankText _ hback, trim_append_of_isBlankText hfront]

/-- Two texts that are not blank are trimmed at the two outer ends. -/
theorem trim_append {as bs : List Char} (has : isBlankText as = false)
    (hbs : isBlankText bs = false) (between : List Char) :
    trim (as ++ between ++ bs) = trimStart as ++ between ++ trimEnd bs := by
  rw [trim, List.append_assoc, trimStart_append has, ← List.append_assoc, trimEnd_append _ hbs]

/-- **A text is what is left of it when trimmed, with blanks around it.** -/
theorem exists_blanks_around (cs : List Char) :
    ∃ front back, cs = front ++ trim cs ++ back ∧ isBlankText front = true ∧
      isBlankText back = true := by
  let dropped := ((trimStart cs).reverse.takeWhile isBlank).reverse
  have apart : trimEnd (trimStart cs) ++ dropped = trimStart cs := by
    rw [trimEnd, ← List.reverse_append, List.takeWhile_append_dropWhile, List.reverse_reverse]
  refine ⟨cs.takeWhile isBlank, dropped, ?_, List.all_takeWhile, ?_⟩
  · rw [List.append_assoc, trim, apart, trimStart, List.takeWhile_append_dropWhile]
  · rw [isBlankText, List.all_reverse]
    exact List.all_takeWhile

/-! ### Fewer characters -/

theorem trimStart_sublist {as bs : List Char} (h : as.Sublist bs) :
    (trimStart as).Sublist (trimStart bs) := by
  unfold trimStart
  induction h with
  | slnil => exact List.Sublist.refl _
  | @cons as bs c h ih =>
    cases hc : isBlank c with
    | true =>
      rw [List.dropWhile_cons_of_pos hc]
      exact ih
    | false =>
      rw [List.dropWhile_cons_of_neg (by rw [hc]; exact Bool.false_ne_true)]
      exact ((List.dropWhile_sublist isBlank).trans h).cons c
  | @cons_cons as bs c h ih =>
    cases hc : isBlank c with
    | true =>
      rw [List.dropWhile_cons_of_pos hc, List.dropWhile_cons_of_pos hc]
      exact ih
    | false =>
      have kept : ¬isBlank c = true := by rw [hc]; exact Bool.false_ne_true
      rw [List.dropWhile_cons_of_neg kept, List.dropWhile_cons_of_neg kept]
      exact h.cons_cons c

theorem trimEnd_sublist {as bs : List Char} (h : as.Sublist bs) :
    (trimEnd as).Sublist (trimEnd bs) :=
  (trimStart_sublist h.reverse).reverse

/-! ### Joined lines -/

theorem joinWith_cons (between line : List Char) {lines : List (List Char)} (ne : lines ≠ []) :
    joinWith between (line :: lines) = line ++ between ++ joinWith between lines := by
  cases lines with
  | nil => exact absurd rfl ne
  | cons next lines => rfl

theorem joinWith_append (between : List Char) {front back : List (List Char)} (hfront : front ≠ [])
    (hback : back ≠ []) :
    joinWith between (front ++ back) =
      joinWith between front ++ between ++ joinWith between back := by
  induction front with
  | nil => exact absurd rfl hfront
  | cons line front ih =>
    cases front with
    | nil => exact joinWith_cons between line hback
    | cons next front =>
      rw [List.cons_append, joinWith_cons _ _ (by simp), ih (List.cons_ne_nil next front),
        joinWith_cons _ _ (List.cons_ne_nil next front)]
      simp only [List.append_assoc]

theorem isBlankText_joinWith_iff {between : List Char} (h : isBlankText between = true)
    {lines : List (List Char)} :
    isBlankText (joinWith between lines) = true ↔ ∀ line ∈ lines, isBlankText line = true := by
  induction lines with
  | nil => simp [joinWith, isBlankText]
  | cons line lines ih =>
    cases lines with
    | nil => simp [joinWith]
    | cons next lines =>
      rw [joinWith_cons _ _ (List.cons_ne_nil next lines), isBlankText_append, isBlankText_append, h,
        Bool.and_true, Bool.and_eq_true, ih]
      simp only [List.forall_mem_cons]

/-- Fewer lines are joined to a text with fewer characters. -/
theorem joinWith_sublist (between : List Char) {some all : List (List Char)}
    (h : some.Sublist all) : (joinWith between some).Sublist (joinWith between all) := by
  induction h with
  | slnil => exact List.Sublist.refl _
  | @cons some all line h ih =>
    cases all with
    | nil =>
      rw [List.sublist_nil.mp h]
      exact List.nil_sublist _
    | cons next all =>
      rw [joinWith_cons _ _ (List.cons_ne_nil next all)]
      exact ih.trans (List.sublist_append_right _ _)
  | @cons_cons some all line h ih =>
    cases some with
    | nil =>
      cases all with
      | nil => exact List.Sublist.refl _
      | cons next all =>
        rw [joinWith_cons _ _ (List.cons_ne_nil next all), List.append_assoc]
        exact List.sublist_append_left _ _
    | cons next some =>
      have more : all ≠ [] := fun none => by
        rw [none] at h
        exact absurd (List.sublist_nil.mp h) (List.cons_ne_nil next some)
      rw [joinWith_cons _ _ (List.cons_ne_nil next some), joinWith_cons _ _ more]
      exact (List.Sublist.refl (line ++ between)).append ih

end Text
end RouteBook
