import RouteBook.Text.Pieces
/-! # Splitting at a separator, and trimming

The pieces of a text hold no separator, and every list of pieces without one is what splitting gives
back.  So a separator in the middle of a text splits it into the pieces before and those behind it
(`splitAt_append_cons`).

Trimming twice is trimming once: a text is trimmed as soon as it neither starts nor ends with a
blank.
-/
namespace RouteBook
namespace Text

variable {sep : Char}

/-! ### Pieces -/

theorem splitAt_cons_self (sep : Char) (cs : List Char) :
    splitAt sep (sep :: cs) = [] :: splitAt sep cs := if_pos rfl

/-- A character that is no separator goes in front of the first piece. -/
theorem splitAt_cons_of_ne {c : Char} (h : c ≠ sep) {cs piece : List Char}
    {pieces : List (List Char)} (hs : splitAt sep cs = piece :: pieces) :
    splitAt sep (c :: cs) = (c :: piece) :: pieces := by
  rw [splitAt, if_neg h, hs]

theorem exists_splitAt_eq_cons (sep : Char) (cs : List Char) :
    ∃ piece pieces, splitAt sep cs = piece :: pieces :=
  List.exists_cons_of_ne_nil (splitAt_ne_nil sep cs)

/-- **A separator splits a text** into the pieces before it and those behind it. -/
theorem splitAt_append_cons (sep : Char) (before after : List Char) :
    splitAt sep (before ++ sep :: after) = splitAt sep before ++ splitAt sep after := by
  induction before with
  | nil => exact splitAt_cons_self sep after
  | cons c before ih =>
    by_cases hc : c = sep
    · subst hc
      rw [List.cons_append, splitAt_cons_self, splitAt_cons_self, ih, List.cons_append]
    · obtain ⟨piece, pieces, hs⟩ := exists_splitAt_eq_cons sep before
      rw [hs] at ih
      rw [splitAt_cons_of_ne hc hs, List.cons_append, splitAt_cons_of_ne hc ih]
      rfl

/-- A text without a separator is a single piece. -/
theorem splitAt_eq_singleton {cs : List Char} (h : sep ∉ cs) : splitAt sep cs = [cs] := by
  induction cs with
  | nil => rfl
  | cons c cs ih =>
    have hc : c ≠ sep := fun he => h (he ▸ List.mem_cons_self)
    exact splitAt_cons_of_ne hc (ih fun hmem => h (List.mem_cons_of_mem c hmem))

/-- The first separator of a text is at one place. -/
theorem append_cons_inj_of_notMem {before after before' after' : List Char}
    (h : before ++ sep :: after = before' ++ sep :: after') (hbefore : sep ∉ before)
    (hbefore' : sep ∉ before') : before = before' ∧ after = after' := by
  have pieces := congrArg (splitAt sep) h
  rw [splitAt_append_cons, splitAt_append_cons, splitAt_eq_singleton hbefore,
    splitAt_eq_singleton hbefore'] at pieces
  obtain rfl := (List.cons.inj pieces).1
  exact ⟨rfl, (List.cons.inj (List.append_cancel_left h)).2⟩

/-- No piece holds a separator. -/
theorem notMem_of_mem_splitAt {cs piece : List Char} (h : piece ∈ splitAt sep cs) :
    sep ∉ piece := by
  induction cs generalizing piece with
  | nil =>
    rw [List.mem_singleton.mp h]
    exact List.not_mem_nil
  | cons c cs ih =>
    by_cases hc : c = sep
    · subst hc
      rw [splitAt_cons_self] at h
      rcases List.mem_cons.mp h with rfl | h
      · exact List.not_mem_nil
      · exact ih h
    · obtain ⟨first, pieces, hs⟩ := exists_splitAt_eq_cons sep cs
      rw [hs] at ih
      rw [splitAt_cons_of_ne hc hs] at h
      rcases List.mem_cons.mp h with rfl | h
      · intro hmem
        rcases List.mem_cons.mp hmem with rfl | hmem
        · exact hc rfl
        · exact ih List.mem_cons_self hmem
      · exact ih (List.mem_cons_of_mem first h)

/-- A piece holds only what the text holds. -/
theorem subset_of_mem_splitAt {cs piece : List Char}
    (h : piece ∈ splitAt sep cs) : piece ⊆ cs := by
  induction cs generalizing piece with
  | nil =>
    rw [List.mem_singleton.mp h]
    exact List.Subset.refl []
  | cons c cs ih =>
    by_cases hc : c = sep
    · subst hc
      rw [splitAt_cons_self] at h
      rcases List.mem_cons.mp h with rfl | h
      · exact List.nil_subset _
      · exact List.subset_cons_of_subset c (ih h)
    · obtain ⟨first, pieces, hs⟩ := exists_splitAt_eq_cons sep cs
      rw [hs] at ih
      rw [splitAt_cons_of_ne hc hs] at h
      rcases List.mem_cons.mp h with rfl | h
      · exact List.cons_subset_cons c (ih List.mem_cons_self)
      · exact List.subset_cons_of_subset c (ih (List.mem_cons_of_mem first h))

/-- Splitting gives the pieces back that had a separator put before each of them. -/
theorem splitAt_flatMap_cons {pieces : List (List Char)} (h : ∀ p ∈ pieces, sep ∉ p) :
    splitAt sep (pieces.flatMap (sep :: ·)) = [] :: pieces := by
  -- behind the first separator stands a piece, and then the same once more
  have behind : ∀ piece, sep ∉ piece → ∀ pieces : List (List Char), (∀ p ∈ pieces, sep ∉ p) →
      splitAt sep (piece ++ pieces.flatMap (sep :: ·)) = piece :: pieces := by
    intro piece hpiece pieces hpieces
    induction pieces generalizing piece with
    | nil =>
      rw [List.flatMap_nil, List.append_nil]
      exact splitAt_eq_singleton hpiece
    | cons next pieces ih =>
      rw [List.flatMap_cons, List.cons_append, splitAt_append_cons, splitAt_eq_singleton hpiece,
        ih next (hpieces next List.mem_cons_self)
          fun p hp => hpieces p (List.mem_cons_of_mem next hp)]
      rfl
  cases pieces with
  | nil => rfl
  | cons piece pieces =>
    rw [List.flatMap_cons, List.cons_append, splitAt_cons_self,
      behind piece (h piece List.mem_cons_self) pieces
        fun p hp => h p (List.mem_cons_of_mem piece hp)]

/-- The pieces of two texts behind each other: the last one of the first and the first one of the
second become one. -/
theorem splitAt_append {before after front last first back}
    (hbefore : splitAt sep before = front ++ [last]) (hafter : splitAt sep after = first :: back) :
    splitAt sep (before ++ after) = front ++ (last ++ first) :: back := by
  induction before generalizing front last with
  | nil =>
    obtain ⟨rfl, hlast⟩ := List.append_inj' (show [] ++ [[]] = front ++ [last] from hbefore) rfl
    rw [← (List.cons.inj hlast).1]
    exact hafter
  | cons c before ih =>
    by_cases hc : c = sep
    · subst hc
      rw [splitAt_cons_self] at hbefore
      cases front with
      | nil => exact absurd (List.cons.inj hbefore).2 (splitAt_ne_nil c before)
      | cons piece front =>
        obtain ⟨rfl, rest⟩ := List.cons.inj hbefore
        rw [List.cons_append, splitAt_cons_self, ih rest]
        rfl
    · obtain ⟨piece, pieces, hs⟩ := exists_splitAt_eq_cons sep before
      rw [splitAt_cons_of_ne hc hs] at hbefore
      cases front with
      | nil =>
        obtain ⟨hlast, rfl⟩ := List.cons.inj hbefore
        rw [← hlast]
        exact splitAt_cons_of_ne hc (@ih [] piece hs)
      | cons first front =>
        obtain ⟨rfl, rfl⟩ := List.cons.inj hbefore
        exact splitAt_cons_of_ne hc (@ih (piece :: front) last hs)

/-- Splitting gives the pieces back that were joined. -/
theorem splitAt_joinWith {pieces : List (List Char)} (ne : pieces ≠ [])
    (h : ∀ p ∈ pieces, sep ∉ p) : splitAt sep (joinWith [sep] pieces) = pieces := by
  induction pieces with
  | nil => exact absurd rfl ne
  | cons piece pieces ih =>
    have hpiece := splitAt_eq_singleton (h piece List.mem_cons_self)
    cases pieces with
    | nil => exact hpiece
    | cons next pieces =>
      rw [joinWith, List.append_assoc, List.singleton_append, splitAt_append_cons, hpiece,
        ih (List.cons_ne_nil next pieces) fun p hp => h p (List.mem_cons_of_mem piece hp)]
      · rfl
      · exact List.cons_ne_nil next pieces

/-- What stands in joined pieces stands in one of them, or in what is between them. -/
theorem mem_of_mem_joinWith {between : List Char} {pieces : List (List Char)} {c : Char}
    (h : c ∈ joinWith between pieces) : c ∈ between ∨ ∃ piece ∈ pieces, c ∈ piece := by
  induction pieces with
  | nil => exact absurd h List.not_mem_nil
  | cons piece pieces ih =>
    cases pieces with
    | nil => exact .inr ⟨piece, List.mem_cons_self, h⟩
    | cons next pieces =>
      rw [show joinWith between (piece :: next :: pieces) =
        piece ++ between ++ joinWith between (next :: pieces) from rfl, List.mem_append,
        List.mem_append] at h
      rcases h with (h | h) | h
      · exact .inr ⟨piece, List.mem_cons_self, h⟩
      · exact .inl h
      · rcases ih h with h | ⟨other, hother, hc⟩
        · exact .inl h
        · exact .inr ⟨other, List.mem_cons_of_mem piece hother, hc⟩

/-- **A text is cut at the first character that passes the test.** -/
theorem cutAt?_eq_some_iff {test : Char → Bool} {cs before after : List Char} :
    cutAt? test cs = some (before, after) ↔
      ∃ c, cs = before ++ c :: after ∧ test c = true ∧ ∀ d ∈ before, test d = false := by
  induction cs generalizing before with
  | nil => simp [cutAt?]
  | cons c cs ih =>
    cases htest : test c with
    | true =>
      rw [cutAt?, if_pos htest, Option.some.injEq, Prod.mk.injEq]
      constructor
      · rintro ⟨rfl, rfl⟩
        exact ⟨c, rfl, htest, fun d hd => absurd hd List.not_mem_nil⟩
      · rintro ⟨d, h, -, front⟩
        cases before with
        | nil => exact ⟨rfl, (List.cons.inj h).2⟩
        | cons first before =>
          obtain ⟨rfl, -⟩ := List.cons.inj h
          rw [front c List.mem_cons_self] at htest
          cases htest
    | false =>
      rw [cutAt?, if_neg (by rw [htest]; exact Bool.false_ne_true), Option.map_eq_some_iff]
      constructor
      · rintro ⟨⟨front, back⟩, cut, same⟩
        obtain ⟨rfl, rfl⟩ := Prod.mk.inj same
        obtain ⟨d, rfl, passes, rest⟩ := ih.mp cut
        refine ⟨d, rfl, passes, fun a ha => ?_⟩
        rcases List.mem_cons.mp ha with rfl | ha
        · exact htest
        · exact rest a ha
      · rintro ⟨d, h, passes, front⟩
        cases before with
        | nil =>
          obtain ⟨rfl, -⟩ := List.cons.inj h
          rw [htest] at passes
          cases passes
        | cons first before =>
          obtain ⟨rfl, rfl⟩ := List.cons.inj h
          exact ⟨(before, after), ih.mpr ⟨d, rfl, passes, fun a ha =>
            front a (List.mem_cons_of_mem _ ha)⟩, rfl⟩

/-- The parts in front of and behind the character at which a text is cut; a text that is not cut is
all in front. -/
theorem getD_cutAt? (test : Char → Bool) (cs : List Char) :
    (cutAt? test cs).getD (cs, []) =
      (cs.takeWhile (!test ·), (cs.dropWhile (!test ·)).tail) := by
  induction cs with
  | nil => rfl
  | cons c cs ih =>
    cases htest : test c with
    | true => simp [cutAt?, htest]
    | false =>
      -- the cut, if there is one, is in the rest of the text
      cases cut : cutAt? test cs with
      | none => simpa [cutAt?, htest, cut] using ih
      | some parts => simpa [cutAt?, htest, cut, Prod.ext_iff] using ih

/-! ### Trimming -/

theorem subset_trim (cs : List Char) : trim cs ⊆ cs := by
  intro c hc
  have hend := (List.dropWhile_suffix isBlank).subset (List.mem_reverse.mp hc)
  exact (List.dropWhile_suffix isBlank).subset (List.mem_reverse.mp hend)

theorem mem_dropWhile_of_not_isBlank {c : Char} (h : isBlank c = false) {cs : List Char}
    (hc : c ∈ cs) : c ∈ cs.dropWhile isBlank := by
  rw [← List.takeWhile_append_dropWhile (p := isBlank) (l := cs), List.mem_append] at hc
  refine hc.resolve_left fun hstart => ?_
  have blank := List.all_eq_true.mp List.all_takeWhile c hstart
  rw [h] at blank
  cases blank

/-- Trimming drops nothing but blanks. -/
theorem mem_trim_of_not_isBlank {c : Char} (h : isBlank c = false) {cs : List Char}
    (hc : c ∈ cs) : c ∈ trim cs := by
  have start := mem_dropWhile_of_not_isBlank h hc
  exact List.mem_reverse.mpr (mem_dropWhile_of_not_isBlank h (List.mem_reverse.mpr start))

/-- A text that does not start with a blank has no blanks to drop there. -/
theorem trimStart_eq_self {cs : List Char} (h : ∀ c ∈ cs.head?, isBlank c = false) :
    trimStart cs = cs := by
  cases cs with
  | nil => rfl
  | cons c cs => exact List.dropWhile_cons_of_neg (by rw [h c rfl]; exact Bool.false_ne_true)

/-- A text that neither starts nor ends with a blank is as it is when trimmed. -/
theorem trim_eq_self {cs : List Char} (start : ∀ c ∈ cs.head?, isBlank c = false)
    (last : ∀ c ∈ cs.getLast?, isBlank c = false) : trim cs = cs := by
  have back : trimStart cs.reverse = cs.reverse := by
    refine trimStart_eq_self fun c hc => last c ?_
    rw [← List.head?_reverse]
    exact hc
  unfold trimStart at back
  rw [trim, trimStart_eq_self start, trimEnd, back, List.reverse_reverse]

theorem isBlank_head_trimStart (cs : List Char) :
    ∀ c ∈ (trimStart cs).head?, isBlank c = false := by
  intro c hc
  have h := List.head?_dropWhile_not isBlank cs
  rw [show (cs.dropWhile isBlank).head? = some c from hc] at h
  exact h

/-- Trimming leaves nothing of a text iff there is nothing in it but blanks. -/
theorem trim_eq_nil_iff (cs : List Char) : trim cs = [] ↔ isBlankText cs = true := by
  rw [isBlankText, List.all_eq_true]
  constructor
  · intro h c hc
    cases hblank : isBlank c with
    | true => rfl
    | false =>
      have left := mem_trim_of_not_isBlank hblank hc
      rw [h] at left
      exact absurd left List.not_mem_nil
  · intro h
    cases start : trimStart cs with
    | nil =>
      rw [trim, start]
      rfl
    | cons c rest =>
      -- what is left at the start is no blank, although it is a character of the text
      have hc : c ∈ trimStart cs := by rw [start]; exact List.mem_cons_self
      have blank := h c ((List.dropWhile_suffix isBlank).subset hc)
      rw [isBlank_head_trimStart cs c (by rw [start]; rfl)] at blank
      cases blank

/-- What is left after dropping blanks at the end is a start of the text. -/
theorem exists_trimEnd_append (cs : List Char) : ∃ dropped, trimEnd cs ++ dropped = cs := by
  obtain ⟨dropped, h⟩ := List.dropWhile_suffix isBlank (l := cs.reverse)
  refine ⟨dropped.reverse, ?_⟩
  rw [trimEnd, ← List.reverse_append, h, List.reverse_reverse]

/-- A trimmed text does not end with a blank. -/
theorem isBlank_getLast_trim (cs : List Char) :
    ∀ c ∈ (trim cs).getLast?, isBlank c = false := by
  intro c hc
  apply isBlank_head_trimStart (trimStart cs).reverse
  rw [← List.getLast?_reverse]
  exact hc

/-- A trimmed text does not start with a blank. -/
theorem isBlank_head_trim (cs : List Char) : ∀ c ∈ (trim cs).head?, isBlank c = false := by
  intro c hc
  -- what is left starts as before the blanks at the end were dropped
  obtain ⟨dropped, happend⟩ := exists_trimEnd_append (trimStart cs)
  refine isBlank_head_trimStart cs c ?_
  rw [← happend, List.head?_append, show (trimEnd (trimStart cs)).head? = some c from hc]
  rfl

/-- **Trimming twice is trimming once.** -/
theorem trim_trim (cs : List Char) : trim (trim cs) = trim cs :=
  trim_eq_self (isBlank_head_trim cs) (isBlank_getLast_trim cs)

end Text
end RouteBook
