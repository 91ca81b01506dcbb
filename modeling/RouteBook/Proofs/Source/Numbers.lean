import RouteBook.Proofs.Decimal.Numerals
import RouteBook.Proofs.Source.Scanning
/-! # Scanning decimal integers

What the scanner makes of a row of decimal digits in which underscores may stand behind the first one:
the integer that the digits denote, of any size, without a suffix (`Scan.literal?_of_digits`).  The
scanner tries strings and floats first; no string begins with a digit, and no float ends without a point
and without an exponent.
-/
namespace RouteBook
namespace Source
open Decimal

/-- **A decimal integer without a suffix**, and the number that it denotes: what a row of digits is read
as, in which underscores may stand behind the first digit. -/
def Literal.IsDecimal (l : Literal) (n : Nat) : Prop :=
  ∃ cs, (∃ c ∈ cs.head?, c.isDigit = true) ∧ Numeral (cs.filter (· ≠ '_')) n ∧
    Scan.literal? cs = some (l, [])

namespace Scan

/-- A digit, or an underscore between digits. -/
def isDigitOrBar (c : Char) : Bool := c.isDigit || c = '_'

theorem isDigitOrBar_of_numeral {cs : List Char} {n : Nat} (h : Numeral (cs.filter (· ≠ '_')) n) :
    ∀ c ∈ cs, isDigitOrBar c = true := by
  intro c hc
  rw [isDigitOrBar, Bool.or_eq_true, decide_eq_true_eq]
  by_cases bar : c = '_'
  · exact .inr bar
  · exact .inl (h.digits c (List.mem_filter.mpr ⟨hc, by simpa using bar⟩))

theorem ne_of_isDigitOrBar {c d : Char} (hc : isDigitOrBar c = true) (hd : isDigitOrBar d = false) :
    c ≠ d := by
  rintro rfl
  rw [hc] at hd
  cases hd

theorem isDigitOrBar_of_isDigit {c : Char} (h : c.isDigit = true) : isDigitOrBar c = true := by
  rw [isDigitOrBar, h, Bool.true_or]

/-! ### The value of the digits -/

theorem hexValue?_of_isDigit {c : Char} (h : c.isDigit = true) :
    hexValue? c = some (c.toNat - '0'.toNat) := by
  simp only [Char.isDigit, Bool.and_eq_true, decide_eq_true_eq, ge_iff_le] at h
  exact if_pos h

/-- One more digit is ten times the number so far and the value of the digit. -/
theorem valueOf_concat_digit (cs : List Char) {d : Char} (h : d.isDigit = true) :
    valueOf 10 (cs ++ [d]) = 10 * valueOf 10 cs + (d.toNat - '0'.toNat) := by
  simp only [valueOf, List.foldl_append, List.foldl_cons, List.foldl_nil, hexValue?_of_isDigit h]
  rw [Nat.mul_comm]

theorem valueOf_concat_bar (cs : List Char) : valueOf 10 (cs ++ ['_']) = valueOf 10 cs := by
  rw [valueOf, List.foldl_append]
  rfl

/-- Underscores do not count. -/
theorem valueOf_eq_ofDigits {cs : List Char} (h : ∀ c ∈ cs, isDigitOrBar c = true) :
    valueOf 10 cs = ofDigits (cs.filter (· ≠ '_')) := by
  induction cs using List.reverseRecOn with
  | nil => rfl
  | append_singleton cs c ih =>
    have front := ih fun d hd => h d (List.mem_append_left _ hd)
    have last := h c (List.mem_append_right cs (List.mem_singleton_self c))
    rw [List.filter_append]
    by_cases bar : c = '_'
    · rw [bar, valueOf_concat_bar, front]
      simp
    · have digit : c.isDigit = true := by simpa [isDigitOrBar, bar] using last
      rw [valueOf_concat_digit cs digit, front, List.filter_cons_of_pos (by simpa using bar),
        List.filter_nil, ofDigits_concat]

theorem valueOf_eq {cs : List Char} {n : Nat} (h : Numeral (cs.filter (· ≠ '_')) n) :
    valueOf 10 cs = n := by
  rw [valueOf_eq_ofDigits (isDigitOrBar_of_numeral h), h.ofDigits_eq]

/-! ### Reading the digits -/

/-- Digits are taken up to their end, once a digit has been seen. -/
theorem intDigits?_of_digits {cs : List Char} (h : ∀ c ∈ cs, isDigitOrBar c = true) {seen : Bool}
    (first : seen = true ∨ ∃ c ∈ cs.head?, c.isDigit = true) :
    intDigits? 10 seen cs = some (cs, []) := by
  induction cs generalizing seen with
  | nil =>
    rcases first with rfl | ⟨c, hc, -⟩
    · rfl
    · cases hc
  | cons c cs ih =>
    have others : intDigits? 10 true cs = some (cs, []) :=
      ih (fun d hd => h d (List.mem_cons_of_mem _ hd)) (.inl rfl)
    rw [intDigits?]
    cases digit : c.isDigit with
    | true =>
      have range : 48 ≤ c.toNat ∧ c.toNat ≤ 57 := by
        simpa [Char.isDigit, UInt32.le_iff_toNat_le] using digit
      have small : c.toNat - '0'.toNat < 10 := by
        show c.toNat - 48 < 10
        omega
      simp only [if_true, if_pos small, others, Option.map_some]
    | false =>
      have bar : c = '_' := by simpa [isDigitOrBar, digit] using h c List.mem_cons_self
      have seen : seen = true := by
        rcases first with seen | ⟨d, hd, hdigit⟩
        · exact seen
        · rw [← Option.some.inj hd, digit] at hdigit
          cases hdigit
      simp [bar, seen, others]

section

variable {c : Char} {cs : List Char} (digit : c.isDigit = true)
  (digits : ∀ d ∈ cs, isDigitOrBar d = true)

include digit

/-- No string begins with a digit. -/
theorem string?_of_isDigit : string? (c :: cs) = none := by
  have apart : ∀ {d : Char}, isDigitOrBar d = false → c ≠ d := fun hd =>
    ne_of_isDigitOrBar (isDigitOrBar_of_isDigit digit) hd
  unfold string?
  split
  case h_7 => rfl
  all_goals
    rename_i heq
    exact absurd (List.cons.inj heq).1 (apart (by decide))

include digits

/-- A row of digits is no float. -/
theorem float?_of_digits : float? (c :: cs) = none := by
  have all : (c :: cs).takeWhile (fun c => c.isDigit || c = '_') = c :: cs := by
    have row : ∀ d ∈ c :: cs, isDigitOrBar d = true :=
      List.forall_mem_cons.mpr ⟨isDigitOrBar_of_isDigit digit, digits⟩
    have taken : (c :: cs ++ []).takeWhile isDigitOrBar = c :: cs ++ [].takeWhile isDigitOrBar :=
      List.takeWhile_append_of_pos row
    rwa [List.append_nil, List.takeWhile_nil, List.append_nil] at taken
  have body : floatBody? (c :: cs) = none := by
    unfold floatBody?
    simp only [digit, Bool.not_true, Bool.false_eq_true, if_false, all, List.drop_length]
  rw [float?, body]
  rfl

/-- It has no mark of another base. -/
theorem intBody?_of_digits : intBody? (c :: cs) = some ((10, [], c :: cs), []) := by
  have apart : ∀ {d : Char} {ds : List Char}, isDigitOrBar d = false → cs ≠ d :: ds := by
    rintro d ds hd rfl
    exact ne_of_isDigitOrBar (digits d List.mem_cons_self) hd rfl
  have read : intDigits? 10 false (c :: cs) = some (c :: cs, []) :=
    intDigits?_of_digits
      (List.forall_mem_cons.mpr ⟨isDigitOrBar_of_isDigit digit, digits⟩) (.inr ⟨c, rfl, digit⟩)
  unfold intBody?
  split
  rename_i base mark heq
  have decimal : (base, mark) = (10, []) := by
    rw [← heq]
    split
    case h_4 => rfl
    all_goals
      rename_i same
      exact absurd (List.cons.inj same).2 (apart (by decide))
  cases decimal
  show (intDigits? 10 false (c :: cs)).map _ = _
  rw [read]
  rfl

end

/-- **A row of digits is the integer that it denotes.** -/
theorem literal?_of_digits {cs : List Char} {n : Nat} (first : ∃ c ∈ cs.head?, c.isDigit = true)
    (h : Numeral (cs.filter (· ≠ '_')) n) :
    literal? cs = some (.int false n "" (String.ofList cs), []) := by
  obtain ⟨c, hc, digit⟩ := first
  obtain ⟨cs, rfl⟩ := List.head?_eq_some_iff.mp hc
  have digits := (List.forall_mem_cons.mp (isDigitOrBar_of_numeral h)).2
  have apart : ∀ {d : Char}, isDigitOrBar d = false → c ≠ d := fun hd =>
    ne_of_isDigitOrBar (isDigitOrBar_of_isDigit digit) hd
  have int : int? (c :: cs) = some (.int false n "" (String.ofList (c :: cs)), []) := by
    rw [int?, intBody?_of_digits digit digits]
    show some ((Literal.int false (valueOf 10 (c :: cs)) "" (String.ofList ([] ++ (c :: cs) ++ []))),
      []) = _
    rw [valueOf_eq h, List.nil_append, List.append_nil]
  unfold literal?
  rw [string?_of_isDigit digit, float?_of_digits digit digits, int]
  split
  · rename_i string
    cases string
  split
  · rename_i byte
    exact absurd (List.cons.inj byte).1 (apart (by decide))
  · rename_i char
    exact absurd (List.cons.inj char).1 (apart (by decide))
  · rfl

end Scan

theorem Literal.IsDecimal.exists_eq {l : Literal} {n : Nat} (h : l.IsDecimal n) :
    ∃ written, l = .int false n "" written := by
  obtain ⟨cs, first, numeral, read⟩ := h
  rw [Scan.literal?_of_digits first numeral] at read
  exact ⟨_, (Prod.mk.inj (Option.some.inj read)).1.symm⟩

end Source
end RouteBook
