import RouteBook.Proofs.Text.Pieces
/-! # Rows of cells between bars

A row has a bar in front of each cell, and bars inside of cells have a backslash in front of them.  It
is read by splitting it at the bars that have none (`splitBars`) and taking the backslashes away from
the others (`unescapeBars`).

What is read off a row can be written again: the escaped cells are its pieces
(`escapeBars_unescapeBars`).  So a row gives its cells back iff splitting gives the escaped cells back,
and that is so iff no cell but the last ends with a backslash, which would escape the bar behind it
(`splitBars_rowChars_iff`, `readRow_escaped_iff`).  In a row without escapes, moreover, no cell may hold
a bar (`readRow_plain_iff`).
-/
namespace RouteBook
namespace Markup

/-! ### Bars and backslashes -/

/-- A text with a backslash in front of every bar. -/
def escapeBars : List Char → List Char
  | [] => []
  | c :: cs => if c = '|' then '\\' :: '|' :: escapeBars cs else c :: escapeBars cs

/-- A text with the backslashes in front of bars taken away. -/
def unescapeBars : List Char → List Char
  | '\\' :: '|' :: cs => '|' :: unescapeBars cs
  | c :: cs => c :: unescapeBars cs
  | [] => []

/-- Splits a text at every bar that has no backslash in front of it.  The flag says whether there is
one in front of the text. -/
def splitBars (escaped : Bool) : List Char → List (List Char)
  | [] => [[]]
  | c :: cs =>
    if c = '|' ∧ escaped = false then [] :: splitBars false cs
    else
      match splitBars (c == '\\') cs with
      | [] => [[c]]
      | piece :: pieces => (c :: piece) :: pieces

/-- Whether there is a backslash in front of what follows a text. -/
def escapes (escaped : Bool) : List Char → Bool
  | [] => escaped
  | c :: cs => escapes (c == '\\') cs

theorem escapes_iff (cs : List Char) : escapes false cs = true ↔ cs.getLast? = some '\\' := by
  suffices h : ∀ escaped, escapes escaped cs = (cs.getLast?.map (· == '\\')).getD escaped by
    rw [h]
    cases cs.getLast? with
    | none => simp
    | some c => simp
  induction cs with
  | nil => exact fun escaped => rfl
  | cons c cs ih =>
    intro escaped
    rw [escapes, ih, List.getLast?_cons]
    cases cs.getLast? <;> rfl

theorem exists_splitBars_eq_cons (escaped : Bool) (cs : List Char) :
    ∃ piece pieces, splitBars escaped cs = piece :: pieces := by
  cases cs with
  | nil => exact ⟨[], [], rfl⟩
  | cons c cs =>
    rw [splitBars]
    split
    · exact ⟨_, _, rfl⟩
    · split <;> exact ⟨_, _, rfl⟩

theorem splitBars_bar (cs : List Char) : splitBars false ('|' :: cs) = [] :: splitBars false cs :=
  if_pos ⟨rfl, rfl⟩

/-- A character at which the text is not split goes in front of the first piece. -/
theorem splitBars_cons {c : Char} {escaped : Bool} (h : ¬ (c = '|' ∧ escaped = false))
    {cs piece : List Char} {pieces : List (List Char)}
    (hs : splitBars (c == '\\') cs = piece :: pieces) :
    splitBars escaped (c :: cs) = (c :: piece) :: pieces := by
  rw [splitBars, if_neg h, hs]

/-- A text is not split iff its first character does not split it and the rest is not split behind
that. -/
theorem splitBars_cons_eq_self_iff {c : Char} {escaped : Bool} {cs : List Char} :
    splitBars escaped (c :: cs) = [c :: cs] ↔
      ¬ (c = '|' ∧ escaped = false) ∧ splitBars (c == '\\') cs = [cs] := by
  by_cases hc : c = '|' ∧ escaped = false
  · obtain ⟨rfl, rfl⟩ := hc
    rw [splitBars_bar]
    constructor
    · intro h
      cases h
    · exact fun h => absurd ⟨rfl, rfl⟩ h.1
  · obtain ⟨piece, pieces, hs⟩ := exists_splitBars_eq_cons (c == '\\') cs
    rw [splitBars_cons hc hs, hs]
    constructor
    · intro h
      obtain ⟨hpiece, rfl⟩ := List.cons.inj h
      exact ⟨hc, by rw [(List.cons.inj hpiece).2]⟩
    · rintro ⟨-, h⟩
      obtain ⟨rfl, rfl⟩ := List.cons.inj h
      rfl

/-- A backslash in front of a text counts only for a bar at its start. -/
theorem splitBars_of_head? {cs : List Char} (h : cs.head? ≠ some '|') (escaped escaped' : Bool) :
    splitBars escaped cs = splitBars escaped' cs := by
  cases cs with
  | nil => rfl
  | cons c cs =>
    have hc : c ≠ '|' := fun bar => h (congrArg some bar)
    rw [splitBars, splitBars, if_neg fun both => hc both.1, if_neg fun both => hc both.1]

/-- A text that is not split itself goes in front of the first piece of what follows. -/
theorem splitBars_append {escaped : Bool} {cs : List Char} (h : splitBars escaped cs = [cs])
    {rest piece : List Char} {pieces : List (List Char)}
    (hs : splitBars (escapes escaped cs) rest = piece :: pieces) :
    splitBars escaped (cs ++ rest) = (cs ++ piece) :: pieces := by
  induction cs generalizing escaped with
  | nil => exact hs
  | cons c cs ih =>
    obtain ⟨hc, rest⟩ := splitBars_cons_eq_self_iff.mp h
    exact splitBars_cons hc (ih rest hs)

/-- Each piece is a text that is not split: the first one behind what was there before, and any other
behind the bar in front of it. -/
theorem splitBars_of_splitBars {escaped : Bool} {cs piece : List Char} {pieces : List (List Char)}
    (hs : splitBars escaped cs = piece :: pieces) :
    splitBars escaped piece = [piece] ∧ ∀ p ∈ pieces, splitBars false p = [p] := by
  induction cs generalizing escaped piece pieces with
  | nil =>
    obtain ⟨rfl, rfl⟩ := List.cons.inj hs
    exact ⟨rfl, fun p hp => absurd hp List.not_mem_nil⟩
  | cons c cs ih =>
    by_cases hc : c = '|' ∧ escaped = false
    · obtain ⟨rfl, rfl⟩ := hc
      rw [splitBars_bar] at hs
      obtain ⟨rfl, rfl⟩ := List.cons.inj hs
      refine ⟨rfl, ?_⟩
      obtain ⟨first, more, hcs⟩ := exists_splitBars_eq_cons false cs
      obtain ⟨hfirst, hmore⟩ := ih hcs
      rw [hcs]
      intro p hp
      rcases List.mem_cons.mp hp with rfl | hp
      · exact hfirst
      · exact hmore p hp
    · obtain ⟨first, more, hcs⟩ := exists_splitBars_eq_cons (c == '\\') cs
      rw [splitBars_cons hc hcs] at hs
      obtain ⟨rfl, rfl⟩ := List.cons.inj hs
      obtain ⟨hfirst, hmore⟩ := ih hcs
      exact ⟨splitBars_cons_eq_self_iff.mpr ⟨hc, hfirst⟩, hmore⟩

/-- Putting the bars back gives the text. -/
theorem append_splitBars {escaped : Bool} {cs piece : List Char} {pieces : List (List Char)}
    (hs : splitBars escaped cs = piece :: pieces) :
    cs = piece ++ pieces.flatMap ('|' :: ·) := by
  induction cs generalizing escaped piece pieces with
  | nil =>
    obtain ⟨rfl, rfl⟩ := List.cons.inj hs
    rfl
  | cons c cs ih =>
    by_cases hc : c = '|' ∧ escaped = false
    · obtain ⟨rfl, rfl⟩ := hc
      rw [splitBars_bar] at hs
      obtain ⟨rfl, rfl⟩ := List.cons.inj hs
      obtain ⟨first, more, hcs⟩ := exists_splitBars_eq_cons false cs
      rw [hcs, List.flatMap_cons, ← List.nil_append ('|' :: cs), ih hcs]
      rfl
    · obtain ⟨first, more, hcs⟩ := exists_splitBars_eq_cons (c == '\\') cs
      rw [splitBars_cons hc hcs] at hs
      obtain ⟨rfl, rfl⟩ := List.cons.inj hs
      rw [ih hcs, List.cons_append]

/-- The pieces hold only what the text holds. -/
theorem subset_of_mem_splitBars {escaped : Bool} {cs p : List Char}
    (h : p ∈ splitBars escaped cs) : p ⊆ cs := by
  obtain ⟨piece, pieces, hs⟩ := exists_splitBars_eq_cons escaped cs
  rw [append_splitBars hs]
  rw [hs] at h
  intro c hc
  rcases List.mem_cons.mp h with rfl | h
  · exact List.mem_append_left _ hc
  · exact List.mem_append_right _ (List.mem_flatMap.mpr ⟨p, h, List.mem_cons_of_mem _ hc⟩)

/-! ### Escaping -/

theorem escapeBars_bar (cs : List Char) : escapeBars ('|' :: cs) = '\\' :: '|' :: escapeBars cs :=
  if_pos rfl

theorem escapeBars_cons {c : Char} (h : c ≠ '|') (cs : List Char) :
    escapeBars (c :: cs) = c :: escapeBars cs := if_neg h

/-- An escaped text is not split, whatever stands in front of it. -/
theorem splitBars_escapeBars (escaped : Bool) (cs : List Char) :
    splitBars escaped (escapeBars cs) = [escapeBars cs] := by
  induction cs generalizing escaped with
  | nil => rfl
  | cons c cs ih =>
    by_cases hc : c = '|'
    · subst hc
      have bar : splitBars true ('|' :: escapeBars cs) = ['|' :: escapeBars cs] :=
        splitBars_cons_eq_self_iff.mpr ⟨fun h => Bool.noConfusion h.2, ih _⟩
      rw [escapeBars_bar]
      exact splitBars_cons_eq_self_iff.mpr ⟨fun h => absurd h.1 (by decide), bar⟩
    · rw [escapeBars_cons hc]
      exact splitBars_cons_eq_self_iff.mpr ⟨fun h => hc h.1, ih _⟩

theorem unescapeBars_cons {c : Char} {cs : List Char} (h : ¬ (c = '\\' ∧ cs.head? = some '|')) :
    unescapeBars (c :: cs) = c :: unescapeBars cs := by
  rw [unescapeBars]
  rintro rest rfl rfl
  exact h ⟨rfl, rfl⟩

theorem head?_escapeBars (cs : List Char) : (escapeBars cs).head? ≠ some '|' := by
  cases cs with
  | nil => exact fun h => by cases h
  | cons c cs =>
    by_cases hc : c = '|'
    · subst hc
      rw [escapeBars_bar]
      exact fun h => absurd (Option.some.inj h) (by decide)
    · rw [escapeBars_cons hc]
      exact fun h => hc (Option.some.inj h)

/-- **Taking the backslashes away undoes escaping.** -/
theorem unescapeBars_escapeBars (cs : List Char) : unescapeBars (escapeBars cs) = cs := by
  induction cs with
  | nil => rfl
  | cons c cs ih =>
    by_cases hc : c = '|'
    · subst hc
      rw [escapeBars_bar, unescapeBars, ih]
    · rw [escapeBars_cons hc, unescapeBars_cons fun h => head?_escapeBars cs h.2, ih]

/-- Escaping undoes taking the backslashes away from a text that is not split: its bars are those that
have lost one. -/
theorem escapeBars_unescapeBars {cs : List Char} (h : splitBars false cs = [cs]) :
    escapeBars (unescapeBars cs) = cs := by
  induction cs using unescapeBars.induct with
  | case1 cs ih =>
    have bar := (splitBars_cons_eq_self_iff.mp h).2
    rw [unescapeBars, escapeBars_bar, ih (splitBars_cons_eq_self_iff.mp bar).2]
  | case2 c cs apart ih =>
    obtain ⟨hc, rest⟩ := splitBars_cons_eq_self_iff.mp h
    have bar : c ≠ '|' := fun bar => hc ⟨bar, rfl⟩
    have head : ¬ (c = '\\' ∧ cs.head? = some '|') := by
      rintro ⟨rfl, hcs⟩
      obtain ⟨cs, rfl⟩ := List.head?_eq_some_iff.mp hcs
      exact apart cs rfl rfl
    have whole : splitBars false cs = [cs] := by
      by_cases backslash : c = '\\'
      · rw [splitBars_of_head? (fun hcs => head ⟨backslash, hcs⟩) false (c == '\\'), rest]
      · rwa [beq_false_of_ne backslash] at rest
    rw [unescapeBars_cons head, escapeBars_cons bar, ih whole]
  | case3 => rfl

/-- An escaped text ends with a backslash iff the text does. -/
theorem getLast?_escapeBars (cs : List Char) : (escapeBars cs).getLast? = cs.getLast? := by
  induction cs with
  | nil => rfl
  | cons c cs ih =>
    by_cases hc : c = '|'
    · subst hc
      rw [escapeBars_bar, List.getLast?_cons, List.getLast?_cons, List.getLast?_cons, ih]
      rfl
    · rw [escapeBars_cons hc, List.getLast?_cons, List.getLast?_cons, ih]

theorem escapeBars_eq_self {cs : List Char} (h : '|' ∉ cs) : escapeBars cs = cs := by
  induction cs with
  | nil => rfl
  | cons c cs ih =>
    rw [List.mem_cons, not_or] at h
    rw [escapeBars_cons (Ne.symm h.1), ih h.2]

/-- Escaping makes a text longer by its bars. -/
theorem length_escapeBars (cs : List Char) : (escapeBars cs).length = cs.length + cs.count '|' := by
  induction cs with
  | nil => rfl
  | cons c cs ih =>
    by_cases hc : c = '|'
    · subst hc
      rw [escapeBars_bar, List.length_cons, List.length_cons, List.length_cons, ih,
        List.count_cons_self]
      omega
    · rw [escapeBars_cons hc, List.length_cons, List.length_cons, ih, List.count_cons_of_ne hc]
      omega

/-- Escaping adds nothing but backslashes. -/
theorem mem_escapeBars {c : Char} {cs : List Char} (h : c ∈ escapeBars cs) : c = '\\' ∨ c ∈ cs := by
  induction cs with
  | nil => exact absurd h List.not_mem_nil
  | cons d cs ih =>
    by_cases hd : d = '|'
    · subst hd
      rw [escapeBars_bar, List.mem_cons, List.mem_cons] at h
      rcases h with rfl | rfl | h
      · exact .inl rfl
      · exact .inr List.mem_cons_self
      · exact (ih h).imp_right (List.mem_cons_of_mem _)
    · rw [escapeBars_cons hd, List.mem_cons] at h
      rcases h with rfl | h
      · exact .inr List.mem_cons_self
      · exact (ih h).imp_right (List.mem_cons_of_mem _)

theorem unescapeBars_subset (cs : List Char) : unescapeBars cs ⊆ cs := by
  induction cs using unescapeBars.induct with
  | case1 cs ih =>
    rw [unescapeBars]
    exact List.subset_cons_of_subset _ (List.cons_subset_cons _ ih)
  | case2 c cs apart ih =>
    rw [unescapeBars]
    · exact List.cons_subset_cons c ih
    · exact apart
  | case3 => exact List.Subset.refl _

/-! ### Rows -/

/-- Texts with a bar in front of each. -/
def rowChars (texts : List (List Char)) : List Char := texts.flatMap ('|' :: ·)

/-- The cells of a row. -/
def readRow (line : List Char) : List (List Char) :=
  ((splitBars false line).drop 1).map unescapeBars

theorem subset_of_mem_readRow {line cell : List Char} (h : cell ∈ readRow line) : cell ⊆ line := by
  obtain ⟨piece, hpiece, rfl⟩ := List.mem_map.mp h
  exact List.Subset.trans (unescapeBars_subset piece)
    (subset_of_mem_splitBars (List.mem_of_mem_drop hpiece))

theorem rowChars_cons (text : List Char) (texts : List (List Char)) :
    rowChars (text :: texts) = '|' :: (text ++ rowChars texts) := rfl

/-- **Texts that are not split themselves are the pieces of their row** iff no text but the last ends
with a backslash, and none stands in front of the row. -/
theorem splitBars_rowChars_iff {texts : List (List Char)}
    (whole : ∀ text ∈ texts, splitBars false text = [text]) (escaped : Bool) :
    splitBars escaped (rowChars texts) = [] :: texts ↔
      (texts ≠ [] → escaped = false) ∧ ∀ text ∈ texts.dropLast, text.getLast? ≠ some '\\' := by
  induction texts generalizing escaped with
  | nil =>
    exact ⟨fun _ => ⟨fun h => absurd rfl h, fun _ h => absurd h List.not_mem_nil⟩, fun _ => rfl⟩
  | cons text texts ih =>
    rw [rowChars_cons]
    cases escaped with
    | true =>
      -- the first bar is escaped, and belongs to the first piece
      obtain ⟨piece, pieces, hs⟩ := exists_splitBars_eq_cons false (text ++ rowChars texts)
      have bar : splitBars true ('|' :: (text ++ rowChars texts)) = ('|' :: piece) :: pieces :=
        splitBars_cons (fun h => Bool.noConfusion h.2) hs
      rw [bar]
      constructor
      · intro h
        cases h
      · exact fun h => Bool.noConfusion (h.1 (List.cons_ne_nil _ _))
    | false =>
      obtain ⟨piece, pieces, hs⟩ := exists_splitBars_eq_cons (escapes false text) (rowChars texts)
      have first : splitBars false (text ++ rowChars texts) = (text ++ piece) :: pieces :=
        splitBars_append (whole text List.mem_cons_self) hs
      have behind : splitBars (escapes false text) (rowChars texts) = [] :: texts ↔
          [] :: (text ++ piece) :: pieces = [] :: text :: texts := by
        rw [hs, List.cons.injEq, List.cons.injEq, List.cons.injEq, List.append_right_eq_self]
        exact ⟨fun h => ⟨rfl, h⟩, fun h => h.2⟩
      rw [splitBars_bar, first, ← behind, ih fun t ht => whole t (List.mem_cons_of_mem _ ht)]
      have last : escapes false text = false ↔ text.getLast? ≠ some '\\' := by
        rw [← Bool.not_eq_true, escapes_iff]
      cases texts with
      | nil =>
        exact ⟨fun _ => ⟨fun _ => rfl, fun _ h => absurd h List.not_mem_nil⟩,
          fun _ => ⟨fun h => absurd rfl h, fun _ h => absurd h List.not_mem_nil⟩⟩
      | cons next texts =>
        rw [List.dropLast_cons_cons, List.forall_mem_cons, ← last]
        exact ⟨fun h => ⟨fun _ => rfl, h.1 (List.cons_ne_nil _ _), h.2⟩,
          fun h => ⟨fun _ => h.2.1, h.2.2⟩⟩

/-- A row gives cells iff they are its pieces when they are escaped. -/
theorem readRow_rowChars_iff {texts cells : List (List Char)} :
    readRow (rowChars texts) = cells ↔
      splitBars false (rowChars texts) = [] :: cells.map escapeBars := by
  obtain ⟨pieces, hs⟩ : ∃ pieces, splitBars false (rowChars texts) = [] :: pieces := by
    cases texts with
    | nil => exact ⟨[], rfl⟩
    | cons text texts => exact ⟨_, splitBars_bar _⟩
  obtain ⟨-, whole⟩ := splitBars_of_splitBars hs
  unfold readRow
  rw [hs, List.cons.injEq]
  constructor
  · rintro rfl
    refine ⟨rfl, ?_⟩
    show pieces = (pieces.map unescapeBars).map escapeBars
    rw [List.map_map]
    exact ((List.map_congr_left fun p hp => escapeBars_unescapeBars (whole p hp)).trans
      (List.map_id pieces)).symm
  · rintro ⟨-, rfl⟩
    show (cells.map escapeBars).map unescapeBars = cells
    rw [List.map_map]
    exact (List.map_congr_left fun c _ => unescapeBars_escapeBars c).trans (List.map_id cells)

/-- **An escaped row gives its cells back** iff no cell but the last ends with a backslash. -/
theorem readRow_escaped_iff {cells : List (List Char)} :
    readRow (rowChars (cells.map escapeBars)) = cells ↔
      ∀ cell ∈ cells.dropLast, cell.getLast? ≠ some '\\' := by
  have whole : ∀ text ∈ cells.map escapeBars, splitBars false text = [text] := by
    intro text htext
    obtain ⟨cell, -, rfl⟩ := List.mem_map.mp htext
    exact splitBars_escapeBars false cell
  have last (cell : List Char) :
      (escapeBars cell).getLast? ≠ some '\\' ↔ cell.getLast? ≠ some '\\' := by
    rw [getLast?_escapeBars]
  rw [readRow_rowChars_iff, splitBars_rowChars_iff whole, ← List.map_dropLast, List.forall_mem_map]
  constructor
  · exact fun h cell hcell => (last cell).mp (h.2 cell hcell)
  · exact fun h => ⟨fun _ => rfl, fun cell hcell => (last cell).mpr (h cell hcell)⟩

theorem length_rowChars_escaped (texts : List (List Char)) :
    (rowChars (texts.map escapeBars)).length =
      (rowChars texts).length + texts.flatten.count '|' := by
  induction texts with
  | nil => rfl
  | cons text texts ih =>
    rw [List.map_cons, rowChars_cons, rowChars_cons, List.length_cons, List.length_cons,
      List.length_append, List.length_append, ih, length_escapeBars, List.flatten_cons,
      List.count_append]
    omega

/-- **A row without escapes gives its cells back** iff none of them holds a bar and none but the last
ends with a backslash. -/
theorem readRow_plain_iff {cells : List (List Char)} :
    readRow (rowChars cells) = cells ↔
      (∀ cell ∈ cells, '|' ∉ cell) ∧ ∀ cell ∈ cells.dropLast, cell.getLast? ≠ some '\\' := by
  have plain (free : ∀ cell ∈ cells, '|' ∉ cell) : cells.map escapeBars = cells :=
    (List.map_congr_left fun cell hcell => escapeBars_eq_self (free cell hcell)).trans
      (List.map_id cells)
  constructor
  · intro back
    -- the bars of the row are those in front of its cells
    have row := append_splitBars (readRow_rowChars_iff.mp back)
    have length := length_rowChars_escaped cells
    rw [show rowChars (cells.map escapeBars) = rowChars cells from row.symm] at length
    have none : cells.flatten.count '|' = 0 := by omega
    have free : ∀ cell ∈ cells, '|' ∉ cell := fun cell hcell hbar =>
      List.count_eq_zero.mp none (List.mem_flatten_of_mem hcell hbar)
    refine ⟨free, readRow_escaped_iff.mp ?_⟩
    rwa [plain free]
  · rintro ⟨free, last⟩
    have back := readRow_escaped_iff.mpr last
    rwa [plain free] at back

end Markup
end RouteBook
