import RouteBook.Json.Print
import RouteBook.Proofs.Text.Lines
/-! # The lines of a JSON text

A value that is written over several lines has something to show on each of them: a bracket, a quote, a
letter or a digit (`marked_prettyChars`).  So none of its lines is a run of dashes, though numbers start
with dashes and strings may hold any number of them.  A string stays on its line, since its line feeds
are escaped (`lineFeed_notMem_quoted`).

The induction goes over values and over the items and members inside of them.  Items and members start
on a fresh line, so the text in front of them has a mark of its own already; what is kept is that every
line *behind the first* has one (`MarkedBelow`).
-/
namespace RouteBook
namespace Text

/-! ### Marked lines -/

/-- The line shows something besides dashes and the end of a line. -/
def HasMark (line : List Char) : Prop := ∃ c ∈ line, c ≠ '-' ∧ c ≠ '\r'

/-- Every line has a mark. -/
def Marked (cs : List Char) : Prop := ∀ piece ∈ splitAt '\n' cs, HasMark piece

/-- Every line but the first has a mark. -/
def MarkedBelow (cs : List Char) : Prop := ∀ piece ∈ (splitAt '\n' cs).tail, HasMark piece

instance (line : List Char) : Decidable (HasMark line) :=
  List.decidableBEx (fun c => c ≠ '-' ∧ c ≠ '\r') line

instance (cs : List Char) : Decidable (Marked cs) :=
  List.decidableBAll HasMark (splitAt '\n' cs)

theorem HasMark.append_left {line : List Char} (h : HasMark line) (more : List Char) :
    HasMark (line ++ more) := by
  obtain ⟨c, hc, mark⟩ := h
  exact ⟨c, List.mem_append_left _ hc, mark⟩

theorem HasMark.append_right {line : List Char} (h : HasMark line) (more : List Char) :
    HasMark (more ++ line) := by
  obtain ⟨c, hc, mark⟩ := h
  exact ⟨c, List.mem_append_right _ hc, mark⟩

theorem Marked.below {cs : List Char} (h : Marked cs) : MarkedBelow cs :=
  fun piece hpiece => h piece (List.mem_of_mem_tail hpiece)

theorem marked_of_lineFeed_notMem {cs : List Char} (single : '\n' ∉ cs) (h : HasMark cs) :
    Marked cs := by
  intro piece hpiece
  rw [splitAt_eq_singleton single, List.mem_singleton] at hpiece
  rwa [hpiece]

theorem markedBelow_of_lineFeed_notMem {cs : List Char} (single : '\n' ∉ cs) : MarkedBelow cs := by
  intro piece hpiece
  rw [splitAt_eq_singleton single] at hpiece
  exact absurd hpiece List.not_mem_nil

/-- The last line of one text and the first line of the next are one line. -/
theorem MarkedBelow.append {before after : List Char} (h : MarkedBelow before)
    (h' : MarkedBelow after) : MarkedBelow (before ++ after) := by
  obtain ⟨front, last, hbefore⟩ := exists_splitAt_eq_concat '\n' before
  obtain ⟨first, back, hafter⟩ := exists_splitAt_eq_cons '\n' after
  rw [MarkedBelow, hbefore] at h
  rw [MarkedBelow, hafter] at h'
  rw [MarkedBelow, splitAt_append hbefore hafter]
  intro piece hpiece
  cases front with
  | nil => exact h' piece hpiece
  | cons line front =>
    rw [List.cons_append, List.tail_cons, List.mem_append, List.mem_cons] at hpiece
    rcases hpiece with hfront | rfl | hback
    · exact h piece (List.mem_append_left _ hfront)
    · exact (h last (List.mem_append_right _ (List.mem_singleton_self last))).append_left first
    · exact h' piece hback

theorem markedBelow_lineFeed_iff {cs : List Char} : MarkedBelow ('\n' :: cs) ↔ Marked cs := by
  rw [MarkedBelow, splitAt_cons_self, List.tail_cons, Marked]

theorem Marked.append {before after : List Char} (h : Marked before) (h' : MarkedBelow after) :
    Marked (before ++ after) :=
  markedBelow_lineFeed_iff.mp ((markedBelow_lineFeed_iff.mpr h).append h')

/-- Whatever stands in front of a text on its first line takes no mark away. -/
theorem Marked.behind {cs : List Char} (h : Marked cs) (indent : List Char) (single : '\n' ∉ indent) :
    Marked (indent ++ cs) := by
  obtain ⟨first, back, hcs⟩ := exists_splitAt_eq_cons '\n' cs
  rw [Marked, hcs] at h
  have before : splitAt '\n' indent = [] ++ [indent] := splitAt_eq_singleton single
  rw [Marked, splitAt_append before hcs]
  intro piece hpiece
  rcases List.mem_cons.mp hpiece with rfl | hback
  · exact (h first List.mem_cons_self).append_right indent
  · exact h piece (List.mem_cons_of_mem _ hback)

/-- A mark is not lost with the carriage return at the end of a line. -/
theorem Marked.hasMark_of_mem_lines {cs line : List Char} (h : Marked cs) (hline : line ∈ lines cs) :
    HasMark line := by
  obtain ⟨piece, hpiece, rfl | rfl⟩ := exists_piece_of_mem_lines hline
  · exact h line hpiece
  · obtain ⟨c, hc, dash, ends⟩ := h piece hpiece
    exact ⟨c, mem_dropCarriageReturn ends hc, dash, ends⟩

end Text

/-! ### Numbers -/

namespace Decimal

open Text

theorem isDigit_of_mem_digitsOf {n : Nat} {c : Char} (h : c ∈ digitsOf n) : c.isDigit = true :=
  Nat.isDigit_of_mem_toDigits (by decide) (by decide) h

theorem hasMark_digitsOf (n : Nat) : HasMark (digitsOf n) := by
  obtain ⟨c, cs, digits⟩ := List.exists_cons_of_ne_nil (Nat.toDigits_ne_nil (n := n) (b := 10))
  have first : c ∈ digitsOf n := by
    rw [digitsOf, digits]
    exact List.mem_cons_self
  refine ⟨c, first, ?_, ?_⟩ <;> rintro rfl <;>
    exact absurd (isDigit_of_mem_digitsOf first) (by decide)

theorem lineFeed_notMem_positional (s : Scientific) : '\n' ∉ positional s := by
  have digits : '\n' ∉ digitsOf s.digits := lineFeed_notMem_toDigits s.digits
  have zeros (k : Nat) : '\n' ∉ List.replicate k '0' := fun h =>
    absurd (List.eq_of_mem_replicate h) (by decide)
  unfold positional
  dsimp only
  split
  · split
    · exact digits
    · rw [List.mem_append, not_or]
      exact ⟨digits, zeros _⟩
  · split
    · rw [List.mem_append, List.mem_cons, not_or, not_or]
      exact ⟨fun h => digits (List.mem_of_mem_take h), by decide,
        fun h => digits (List.mem_of_mem_drop h)⟩
    · rw [List.mem_cons, List.mem_cons, List.mem_append, not_or, not_or, not_or]
      exact ⟨by decide, by decide, zeros _, digits⟩

theorem hasMark_positional (s : Scientific) : HasMark (positional s) := by
  have digits := hasMark_digitsOf s.digits
  unfold positional
  dsimp only
  split
  · split
    · exact digits
    · exact digits.append_left _
  · split
    · exact ⟨'.', List.mem_append_right _ List.mem_cons_self, by decide, by decide⟩
    · exact ⟨'0', List.mem_cons_self, by decide, by decide⟩

theorem lineFeed_notMem_write (layout : Layout) (s : Scientific) : '\n' ∉ layout.write s := by
  have digits : '\n' ∉ digitsOf s.digits := lineFeed_notMem_toDigits s.digits
  unfold Layout.write
  dsimp only
  split
  · split
    · rw [List.mem_append, not_or]
      exact ⟨lineFeed_notMem_positional s, by decide⟩
    · exact lineFeed_notMem_positional s
  · have sign (p : Int) : '\n' ∉ (if p < 0 then ['-'] else if layout.plus then ['+'] else []) := by
      split
      · decide
      · split <;> decide
    rw [List.mem_append, List.mem_cons, List.mem_append, not_or, not_or, not_or]
    refine ⟨?_, by decide, sign _, lineFeed_notMem_toDigits _⟩
    split
    · exact List.not_mem_nil
    · rename_i d one
      rwa [one] at digits
    · rename_i d rest more
      rw [more, List.mem_cons, not_or] at digits
      rw [List.mem_cons, List.mem_cons, not_or, not_or]
      exact ⟨digits.1, by decide, digits.2⟩

theorem hasMark_write (layout : Layout) (s : Scientific) : HasMark (layout.write s) := by
  unfold Layout.write
  dsimp only
  split
  · split
    · exact (hasMark_positional s).append_left _
    · exact hasMark_positional s
  · exact ⟨'e', List.mem_append_right _ List.mem_cons_self, by decide, by decide⟩

theorem marked_signed {cs : List Char} (negative : Bool) (single : '\n' ∉ cs) (h : HasMark cs) :
    Marked (signed negative cs) := by
  have plain := marked_of_lineFeed_notMem single h
  unfold signed
  split
  · exact plain.behind ['-'] (by decide)
  · exact plain

end Decimal

namespace Json

open Text

theorem marked_numberChars (n : Number) : Marked (numberChars n) := by
  unfold numberChars
  split
  · rename_i value
    rw [Decimal.ofInt, String.toList_ofList]
    exact Decimal.marked_signed _ (lineFeed_notMem_toDigits _) (Decimal.hasMark_digitsOf _)
  · decide
  · rw [Decimal.Layout.finite]
    split
    · exact Decimal.marked_signed _ (by decide) ⟨'0', by decide⟩
    · exact Decimal.marked_signed _ (Decimal.lineFeed_notMem_write _ _) (Decimal.hasMark_write _ _)

/-! ### Strings -/

theorem hexDigit_ne_lineFeed {n : Nat} (h : n < 16) : '\n' ≠ hexDigit n := by
  have digits : ∀ n < 16, '\n' ≠ hexDigit n := by decide
  exact digits n h

theorem lineFeed_notMem_escapeChar (c : Char) : '\n' ∉ escapeChar c := by
  by_cases lineFeed : c = '\n'
  · subst lineFeed
    decide
  · unfold escapeChar
    rw [if_neg lineFeed]
    -- six characters have an escape of their own
    iterate 6
      split
      · decide
    split
    · rename_i control
      have high := hexDigit_ne_lineFeed (n := c.toNat / 16) (by omega)
      have low := hexDigit_ne_lineFeed (n := c.toNat % 16) (by omega)
      simp [high, low]
    · rw [List.mem_singleton]
      exact Ne.symm lineFeed

theorem lineFeed_notMem_quoted (s : String) : '\n' ∉ quoted s := by
  unfold quoted
  rw [List.mem_cons, List.mem_append, List.mem_flatMap, not_or, not_or]
  refine ⟨by decide, ?_, by decide⟩
  rintro ⟨c, -, h⟩
  exact lineFeed_notMem_escapeChar c h

theorem marked_quoted (s : String) : Marked (quoted s) :=
  marked_of_lineFeed_notMem (lineFeed_notMem_quoted s) ⟨'"', List.mem_cons_self, by decide, by decide⟩

/-! ### Values -/

/-- A fresh line has the mark of the text on it. -/
theorem markedBelow_freshLine (depth : Nat) {cs : List Char} (h : Marked cs) :
    MarkedBelow (freshLine depth ++ cs) := by
  have blanks : '\n' ∉ List.replicate (2 * depth) ' ' := fun hmem =>
    absurd (List.eq_of_mem_replicate hmem) (by decide)
  exact markedBelow_lineFeed_iff.mpr (h.behind _ blanks)

/-- Brackets around items or members that start on fresh lines. -/
theorem marked_bracketed {opening closing : Char} (opens : Marked [opening]) (closes : Marked [closing])
    {depth : Nat} {cs : List Char} (h : MarkedBelow cs) :
    Marked (opening :: (cs ++ freshLine depth ++ [closing])) := by
  have rest := h.append (markedBelow_freshLine depth closes)
  rw [← List.append_assoc] at rest
  exact opens.append rest

/-- A member whose key is on a fresh line. -/
theorem markedBelow_member (depth : Nat) (key : String) {cs : List Char} (h : Marked cs) :
    MarkedBelow (freshLine depth ++ quoted key ++ ':' :: ' ' :: cs) :=
  (markedBelow_freshLine depth (marked_quoted key)).append (h.behind [':', ' '] (by decide)).below

/-- More items or members, behind a comma. -/
theorem markedBelow_comma {cs : List Char} (h : MarkedBelow cs) : MarkedBelow (',' :: cs) := by
  have comma : Marked [','] := by decide
  exact (comma.append h).below

mutual
/-- **Every line of a value has a mark.** -/
theorem marked_prettyChars (depth : Nat) : ∀ value : Json, Marked (prettyChars depth value)
  | .null => show Marked ['n', 'u', 'l', 'l'] by decide
  | .bool true => show Marked ['t', 'r', 'u', 'e'] by decide
  | .bool false => show Marked ['f', 'a', 'l', 's', 'e'] by decide
  | .number n => marked_numberChars n
  | .text s => marked_quoted s
  | .array [] => show Marked ['[', ']'] by decide
  | .array (item :: items) =>
    marked_bracketed (by decide) (by decide) (markedBelow_prettyItems (depth + 1) (item :: items))
  | .object [] => show Marked ['{', '}'] by decide
  | .object (m :: members) =>
    marked_bracketed (by decide) (by decide) (markedBelow_prettyMembers (depth + 1) (m :: members))

theorem markedBelow_prettyItems (depth : Nat) :
    ∀ items : List Json, MarkedBelow (prettyItems depth items)
  | [] => markedBelow_of_lineFeed_notMem List.not_mem_nil
  | [item] => markedBelow_freshLine depth (marked_prettyChars depth item)
  | item :: next :: items =>
    (markedBelow_freshLine depth (marked_prettyChars depth item)).append
      (markedBelow_comma (markedBelow_prettyItems depth (next :: items)))

theorem markedBelow_prettyMembers (depth : Nat) :
    ∀ members : List (String × Json), MarkedBelow (prettyMembers depth members)
  | [] => markedBelow_of_lineFeed_notMem List.not_mem_nil
  | [(key, value)] => markedBelow_member depth key (marked_prettyChars depth value)
  | (key, value) :: next :: members =>
    markedBelow_member depth key ((marked_prettyChars depth value).append
      (markedBelow_comma (markedBelow_prettyMembers depth (next :: members))))
end

/-- **No line of a value that is written over several lines is a run of dashes.** -/
theorem hasMark_of_mem_lines_pretty {value : Json} {line : List Char}
    (h : line ∈ lines value.pretty.toList) : HasMark line := by
  rw [pretty, String.toList_ofList] at h
  exact (marked_prettyChars 0 value).hasMark_of_mem_lines h

end Json
end RouteBook
