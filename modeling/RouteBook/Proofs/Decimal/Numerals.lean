import Mathlib.Data.List.Induction
import RouteBook.Decimal.Reading
import RouteBook.Decimal.Shortest
import RouteBook.Proofs.Text.Trimming
/-! # Integers as they are written

An integer is written with decimal digits, perhaps behind a sign and perhaps with blanks around it
(`Decimal.Writes`).  A numeral grows at its end: one more digit is ten times the number so far and the
value of the digit (`Decimal.Numeral`).  Reading takes exactly these texts, and gives the number that
is written (`int?_trimmed_eq_some_iff`); leading zeros are no harm, and a number may be of any size.
-/
namespace RouteBook
namespace Decimal

open Text

/-- A row of decimal digits and the number that it denotes. -/
inductive Numeral : List Char → Nat → Prop
  | digit {d : Char} (h : d.isDigit = true) : Numeral [d] (d.toNat - '0'.toNat)
  | next {ds : List Char} {n : Nat} {d : Char} (front : Numeral ds n) (h : d.isDigit = true) :
      Numeral (ds ++ [d]) (10 * n + (d.toNat - '0'.toNat))

/-- A numeral with an optional sign. -/
inductive SignedNumeral : List Char → Int → Prop
  | unsigned {ds : List Char} {n : Nat} (h : Numeral ds n) : SignedNumeral ds n
  | plus {ds : List Char} {n : Nat} (h : Numeral ds n) : SignedNumeral ('+' :: ds) n
  | minus {ds : List Char} {n : Nat} (h : Numeral ds n) : SignedNumeral ('-' :: ds) (-n)

/-- A text that writes an integer: a numeral with an optional sign, and blanks around it. -/
def Writes (written : String) (n : Int) : Prop :=
  ∃ front cs back, written.toList = front ++ cs ++ back ∧ isBlankText front = true ∧
    isBlankText back = true ∧ SignedNumeral cs n

/-! ### Digits -/

theorem ofDigits_concat (ds : List Char) (d : Char) :
    ofDigits (ds ++ [d]) = 10 * ofDigits ds + (d.toNat - '0'.toNat) := by
  rw [ofDigits, List.foldl_append]
  rfl

theorem nat?_eq_some {ds : List Char} (ne : ds ≠ []) (digits : ∀ d ∈ ds, d.isDigit = true) :
    nat? ds = some (ofDigits ds) := by
  rw [nat?, if_pos]
  rw [Bool.and_eq_true, List.all_eq_true]
  exact ⟨by simpa using ne, digits⟩

theorem Numeral.digits {ds : List Char} {n : Nat} (h : Numeral ds n) :
    ∀ d ∈ ds, d.isDigit = true := by
  induction h with
  | digit hd => simpa using hd
  | next _ hd ih =>
    intro c hc
    rcases List.mem_append.mp hc with hc | hc
    · exact ih c hc
    · rwa [List.mem_singleton.mp hc]

theorem Numeral.ofDigits_eq {ds : List Char} {n : Nat} (h : Numeral ds n) : ofDigits ds = n := by
  induction h with
  | digit hd =>
    rw [← List.nil_append [_], ofDigits_concat]
    exact Nat.zero_add _
  | next _ hd ih => rw [ofDigits_concat, ih]

theorem Numeral.ne_nil {ds : List Char} {n : Nat} (h : Numeral ds n) : ds ≠ [] := by
  cases h <;> simp

theorem numeral_ofDigits {ds : List Char} (ne : ds ≠ []) (digits : ∀ d ∈ ds, d.isDigit = true) :
    Numeral ds (ofDigits ds) := by
  induction ds using List.reverseRecOn with
  | nil => exact absurd rfl ne
  | append_singleton ds d ih =>
    have hd := digits d (List.mem_append_right ds (List.mem_singleton_self d))
    rw [ofDigits_concat]
    by_cases only : ds = []
    · rw [only]
      show Numeral [d] (0 + (d.toNat - '0'.toNat))
      rw [Nat.zero_add]
      exact .digit hd
    · exact .next (ih only fun c hc => digits c (List.mem_append_left _ hc)) hd

/-- **Digits are read as the number that they denote.** -/
theorem nat?_eq_some_iff {ds : List Char} {n : Nat} : nat? ds = some n ↔ Numeral ds n := by
  constructor
  · intro h
    unfold nat? at h
    split at h
    · rename_i row
      rw [Bool.and_eq_true, List.all_eq_true] at row
      obtain rfl := Option.some.inj h
      exact numeral_ofDigits (by simpa using row.1) row.2
    · cases h
  · intro h
    rw [nat?_eq_some h.ne_nil h.digits, h.ofDigits_eq]

/-! ### Signs and blanks -/

theorem int?_of_unsigned {cs : List Char} (minus : cs.head? ≠ some '-')
    (plus : cs.head? ≠ some '+') : int? cs = (nat? cs).map Int.ofNat := by
  have sign : takeSign cs = (false, cs) := by
    unfold takeSign
    split
    · exact absurd rfl minus
    · exact absurd rfl plus
    · rfl
  rw [int?, sign]
  dsimp only
  cases nat? cs <;> rfl

theorem int?_plus (cs : List Char) : int? ('+' :: cs) = (nat? cs).map Int.ofNat := by
  rw [int?, takeSign]
  dsimp only
  cases nat? cs <;> rfl

theorem int?_minus (cs : List Char) :
    int? ('-' :: cs) = (nat? cs).map fun n => -Int.ofNat n := by
  rw [int?, takeSign]
  dsimp only
  cases nat? cs <;> rfl

theorem Numeral.head?_ne {ds : List Char} {n : Nat} (h : Numeral ds n) {c : Char}
    (hc : c.isDigit = false) : ds.head? ≠ some c := by
  intro start
  have digit := h.digits c (List.mem_of_mem_head? start)
  rw [hc] at digit
  cases digit

theorem int?_eq_some_iff {cs : List Char} {n : Int} : int? cs = some n ↔ SignedNumeral cs n := by
  constructor
  · intro h
    by_cases minus : cs.head? = some '-'
    · obtain ⟨ds, rfl⟩ := List.head?_eq_some_iff.mp minus
      rw [int?_minus] at h
      obtain ⟨m, read, rfl⟩ := Option.map_eq_some_iff.mp h
      exact .minus (nat?_eq_some_iff.mp read)
    by_cases plus : cs.head? = some '+'
    · obtain ⟨ds, rfl⟩ := List.head?_eq_some_iff.mp plus
      rw [int?_plus] at h
      obtain ⟨m, read, rfl⟩ := Option.map_eq_some_iff.mp h
      exact .plus (nat?_eq_some_iff.mp read)
    · rw [int?_of_unsigned minus plus] at h
      obtain ⟨m, read, rfl⟩ := Option.map_eq_some_iff.mp h
      exact .unsigned (nat?_eq_some_iff.mp read)
  · rintro (h | h | h)
    · rw [int?_of_unsigned (h.head?_ne (by decide)) (h.head?_ne (by decide)),
        nat?_eq_some_iff.mpr h]
      rfl
    · rw [int?_plus, nat?_eq_some_iff.mpr h]
      rfl
    · rw [int?_minus, nat?_eq_some_iff.mpr h]
      rfl

theorem not_isBlank_of_isDigit {c : Char} (h : c.isDigit = true) : isBlank c = false := by
  have range : 48 ≤ c.toNat ∧ c.toNat ≤ 57 := by simpa [Char.isDigit, UInt32.le_iff_toNat_le] using h
  simp only [isBlank, Bool.or_eq_false_iff, Bool.and_eq_false_iff, decide_eq_false_iff_not,
    beq_eq_false_iff_ne]
  omega

theorem SignedNumeral.not_isBlank {cs : List Char} {n : Int} (h : SignedNumeral cs n) :
    ∀ c ∈ cs, isBlank c = false := by
  cases h with
  | unsigned h => exact fun c hc => not_isBlank_of_isDigit (h.digits c hc)
  | plus h =>
    exact List.forall_mem_cons.mpr ⟨by decide, fun c hc => not_isBlank_of_isDigit (h.digits c hc)⟩
  | minus h =>
    exact List.forall_mem_cons.mpr ⟨by decide, fun c hc => not_isBlank_of_isDigit (h.digits c hc)⟩

/-- **A text is read as an integer iff it writes that integer.** -/
theorem int?_trimmed_eq_some_iff {written : String} {n : Int} :
    int? (trimmed written).toList = some n ↔ Writes written n := by
  rw [trimmed, String.toList_ofList, int?_eq_some_iff]
  constructor
  · intro h
    obtain ⟨front, back, around, hfront, hback⟩ := exists_blanks_around written.toList
    exact ⟨front, trim written.toList, back, around, hfront, hback, h⟩
  · rintro ⟨front, cs, back, around, hfront, hback, h⟩
    have visible := h.not_isBlank
    rw [around, trim_around hfront cs hback,
      trim_eq_self (fun c hc => visible c (List.mem_of_mem_head? hc))
        fun c hc => visible c (List.mem_of_getLast? hc)]
    exact h

theorem Writes.unique {written : String} {m n : Int} (h : Writes written m)
    (h' : Writes written n) : m = n :=
  Option.some.inj ((int?_trimmed_eq_some_iff.mpr h).symm.trans (int?_trimmed_eq_some_iff.mpr h'))

/-- An integer is written in the usual way. -/
theorem ofInt_eq_toString (n : Int) : ofInt n = toString n := by
  cases n with
  | ofNat m =>
    rw [ofInt, signed, if_neg (by simp)]
    rfl
  | negSucc m =>
    have digits : toString (m + 1) = String.ofList (digitsOf (m + 1)) := rfl
    rw [ofInt, signed, if_pos (by simp), ← String.toList_inj, String.toList_ofList,
      show toString (Int.negSucc m) = "-" ++ toString (m + 1) from rfl, String.toList_append,
      digits, String.toList_ofList, String.toList_ofList]
    rfl

end Decimal
end RouteBook
