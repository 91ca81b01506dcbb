import RouteBook.Proofs.Text.Lines
import RouteBook.Proofs.Text.Trimming
/-! # The words of a text

The words of a text are what stands between its blanks.  A blank in a text stands between two words
or next to another blank, so the words of the text are those in front of it and then those behind it
(`words_append_cons`).  From that one law it follows that trimming keeps the words (`words_trim`), that
texts joined by blanks have the words of each of them in turn (`words_joinWith`), and that a text has
the words of its lines (`words_eq_flatMap_lines`).
-/
namespace RouteBook
namespace Text

variable {c : Char}

/-! ### Runs -/

theorem runs_ne_nil (cs : List Char) : runs cs ≠ [] := by
  cases cs with
  | nil => simp [runs]
  | cons c cs =>
    unfold runs
    split
    · simp
    · split <;> simp

theorem runs_cons_of_isBlank (h : isBlank c = true) (cs : List Char) :
    runs (c :: cs) = [] :: runs cs := if_pos h

/-- A character that is no blank goes in front of the first run. -/
theorem runs_cons_of_not_isBlank (h : isBlank c = false) {cs run : List Char}
    {rest : List (List Char)} (hs : runs cs = run :: rest) : runs (c :: cs) = (c :: run) :: rest := by
  rw [runs, if_neg (by rw [h]; exact Bool.false_ne_true), hs]

/-- A blank ends one run and opens another. -/
theorem runs_append_cons (h : isBlank c = true) (before after : List Char) :
    runs (before ++ c :: after) = runs before ++ runs after := by
  induction before with
  | nil => exact runs_cons_of_isBlank h after
  | cons d before ih =>
    cases hd : isBlank d with
    | true =>
      rw [List.cons_append, runs_cons_of_isBlank hd, runs_cons_of_isBlank hd, ih, List.cons_append]
    | false =>
      obtain ⟨run, rest, hs⟩ := List.exists_cons_of_ne_nil (runs_ne_nil before)
      rw [hs] at ih
      rw [runs_cons_of_not_isBlank hd hs, List.cons_append, runs_cons_of_not_isBlank hd ih]
      rfl

/-- A text without a blank is a single run. -/
theorem runs_eq_singleton {cs : List Char} (h : ∀ c ∈ cs, isBlank c = false) : runs cs = [cs] := by
  induction cs with
  | nil => rfl
  | cons c cs ih =>
    obtain ⟨hc, hrest⟩ := List.forall_mem_cons.mp h
    exact runs_cons_of_not_isBlank hc (ih hrest)

/-! ### Words -/

theorem words_nil : words [] = [] := rfl

/-- **A blank has the words in front of it and those behind it.** -/
theorem words_append_cons (h : isBlank c = true) (before after : List Char) :
    words (before ++ c :: after) = words before ++ words after := by
  rw [words, runs_append_cons h, List.filter_append, words, words]

/-- The words of two texts, the second of which does not go on with a word of the first. -/
theorem words_append {before after : List Char} (h : ∀ c ∈ after.head?, isBlank c = true) :
    words (before ++ after) = words before ++ words after := by
  cases after with
  | nil => rw [List.append_nil, words_nil, List.append_nil]
  | cons c after =>
    have apart := words_append_cons (h c rfl)
    rw [apart before after, ← List.nil_append (c :: after), apart [] after, words_nil,
      List.nil_append]

theorem words_of_isBlankText {cs : List Char} (h : isBlankText cs = true) : words cs = [] := by
  induction cs with
  | nil => rfl
  | cons c cs ih =>
    rw [isBlankText, List.all_cons, Bool.and_eq_true] at h
    exact (words_append_cons h.1 [] cs).trans (ih h.2)

/-- A text without a blank is a word, unless it is empty. -/
theorem words_of_not_isBlank {word : List Char} (h : ∀ c ∈ word, isBlank c = false) :
    words word = [word].filter (· ≠ []) := by
  rw [words, runs_eq_singleton h]

/-- A character that is no blank opens a word or goes on with the one in front. -/
theorem exists_words_cons (h : isBlank c = false) (cs : List Char) :
    ∃ word rest, words (c :: cs) = (c :: word) :: rest ∧
      words cs = [word].filter (· ≠ []) ++ rest := by
  obtain ⟨run, rest, hs⟩ := List.exists_cons_of_ne_nil (runs_ne_nil cs)
  refine ⟨run, rest.filter (· ≠ []), ?_, ?_⟩
  · rw [words, runs_cons_of_not_isBlank h hs, List.filter_cons_of_pos (by simp)]
  · rw [words, hs, ← List.filter_append, List.singleton_append]

theorem words_append_isBlankText (cs : List Char) {back : List Char}
    (h : isBlankText back = true) : words (cs ++ back) = words cs := by
  have start : ∀ c ∈ back.head?, isBlank c = true := fun c hc =>
    List.all_eq_true.mp h c (List.mem_of_mem_head? hc)
  rw [words_append start, words_of_isBlankText h, List.append_nil]

theorem words_isBlankText_append {front : List Char} (h : isBlankText front = true)
    (cs : List Char) : words (front ++ cs) = words cs := by
  induction front with
  | nil => rfl
  | cons c front ih =>
    rw [isBlankText, List.all_cons, Bool.and_eq_true] at h
    exact (words_append_cons h.1 [] (front ++ cs)).trans (ih h.2)

/-- **Trimming keeps the words.** -/
theorem words_trim (cs : List Char) : words (trim cs) = words cs := by
  obtain ⟨front, back, around, hfront, hback⟩ := exists_blanks_around cs
  calc words (trim cs) = words (front ++ trim cs) := (words_isBlankText_append hfront _).symm
    _ = words (front ++ trim cs ++ back) := (words_append_isBlankText _ hback).symm
    _ = words cs := by rw [← around]

/-- **Texts joined by a blank have the words of each of them in turn.** -/
theorem words_joinWith (h : isBlank c = true) (texts : List (List Char)) :
    words (joinWith [c] texts) = texts.flatMap words := by
  induction texts with
  | nil => rfl
  | cons text texts ih =>
    cases texts with
    | nil => exact (List.append_nil _).symm
    | cons next texts =>
      rw [joinWith_cons _ _ (List.cons_ne_nil next texts), List.append_assoc, List.singleton_append,
        words_append_cons h, ih, ← List.flatMap_cons]

/-- Empty texts have no words. -/
theorem flatMap_words_filter (texts : List (List Char)) :
    (texts.filter (· ≠ [])).flatMap words = texts.flatMap words := by
  induction texts with
  | nil => rfl
  | cons text texts ih =>
    by_cases empty : text = []
    · rw [List.filter_cons_of_neg (by simp [empty]), ih, List.flatMap_cons, empty, words_nil,
        List.nil_append]
    · rw [List.filter_cons_of_pos (by simp [empty]), List.flatMap_cons, ih, List.flatMap_cons]

theorem words_dropCarriageReturn (piece : List Char) :
    words (dropCarriageReturn piece) = words piece := by
  unfold dropCarriageReturn
  split
  · rename_i last
    obtain ⟨front, rfl⟩ := List.getLast?_eq_some_iff.mp last
    rw [List.dropLast_concat, words_append_isBlankText front (by decide)]
  · rfl

/-- **A text has the words of its lines.** -/
theorem words_eq_flatMap_lines (cs : List Char) : words cs = (lines cs).flatMap words := by
  obtain ⟨front, last, pieces⟩ := exists_splitAt_eq_concat '\n' cs
  have ended : (front.map dropCarriageReturn).flatMap words = front.flatMap words := by
    rw [List.flatMap_map]
    exact congrArg (front.flatMap ·) (funext words_dropCarriageReturn)
  have remaining : ([last].filter (· ≠ [])).flatMap words = words last := by
    cases last with
    | nil => rfl
    | cons c last => exact List.append_nil _
  calc words cs = words (joinWith ['\n'] (splitAt '\n' cs)) := by rw [joinWith_splitAt]
    _ = (front ++ [last]).flatMap words := by rw [words_joinWith (by decide), pieces]
    _ = (lines cs).flatMap words := by
      rw [lines_of_splitAt pieces, List.flatMap_append, List.flatMap_append, ended, remaining]
      exact congrArg (front.flatMap words ++ ·) (List.append_nil _)

end Text
end RouteBook
