import RouteBook.Declared.Marker
import RouteBook.Proofs.Source.Numbers
import RouteBook.Source.Grammar
/-! # Integers as arguments

An argument may be a decimal integer without a suffix, with minus signs and parentheses around it in any
nesting (`Source.Expr.Denotes`).  The literal itself has to fit into 64 bits with a sign before the signs
around it are applied, one after another.  All that lies between is as large as the literal, up to its
sign, so the literal decides alone whether the argument has a value (`isExact_of_denotes`).

Without a sign a literal does not go below zero, and so what is read lies strictly between `-2 ^ 63` and
`2 ^ 63`: no negation leaves the range, but `-2 ^ 63`, which is in it, cannot be had in this way.  Only a
literal that stands alone behind `=` carries its own sign, and there the least integer is a value like
any other (`integer_argument_exact_iff`).
-/
namespace RouteBook
open Source

/-! ### Integer expressions -/

/-- **A decimal integer with minus signs and parentheses around it**, and the number that it denotes. -/
inductive Source.Expr.Denotes : Expr → Int → Prop
  | literal {l : Literal} {n : Nat} (h : l.IsDecimal n) : Denotes (.literal l) n
  | negated {e : Expr} {v : Int} (h : Denotes e v) : Denotes (.unary '-' e) (-v)
  | grouped {e : Expr} {v : Int} (h : Denotes e v) : Denotes (.grouped e) v

/-- **An argument that denotes an integer**: an expression in the arguments of an attribute, or a literal
behind `=`, which may have a sign of its own. -/
inductive IsIntegerArgument : Expr → Int → Prop
  | unsigned {e : Expr} {v : Int} (h : e.Denotes v) : IsIntegerArgument e v
  | signed {l l' : Literal} {n : Nat} (h : l.IsDecimal n) (sign : Parser.negated? l = some l') :
      IsIntegerArgument (.literal l') (-n)

namespace MarkerValue

/-- **A negation that is made**: while the expression is read, the integer `i` is met behind a minus
sign. -/
inductive Negates : Expr → Int → Prop
  | here {operand : Expr} {i : Int} (h : ofExpr operand = .int i) : Negates (.unary '-' operand) i
  | operand {operand : Expr} {i : Int} (h : Negates operand i) : Negates (.unary '-' operand) i
  | inner {inner : Expr} {i : Int} (h : Negates inner i) : Negates (.grouped inner) i

theorem intRange_iff {i : Int} :
    intRange i = true ↔ -9223372036854775808 ≤ i ∧ i < 9223372036854775808 := by
  rw [intRange, Bool.and_eq_true, decide_eq_true_eq, decide_eq_true_eq]
  rfl

/-! ### Exact values -/

/-- **An expression is read exactly**: its value is `v` if the number fits, and it has none if not. -/
structure IsExact (e : Expr) (v : Int) (fits : Prop) : Prop where
  value : fits → ofExpr e = .int v
  unread : ¬fits → ∃ what, ofExpr e = .unsupported what

namespace IsExact

variable {e : Expr} {v : Int} {fits : Prop}

theorem congr {other : Prop} (same : fits ↔ other) (h : IsExact e v fits) : IsExact e v other :=
  ⟨fun o => h.value (same.mpr o), fun o => h.unread fun f => o (same.mp f)⟩

/-- The sign of what is inside is turned round. -/
theorem negated (h : IsExact e v fits) : IsExact (.unary '-' e) (-v) fits where
  value f := by rw [ofExpr, if_pos rfl, h.value f]
  unread f := by
    obtain ⟨what, unread⟩ := h.unread f
    exact ⟨"expression", by rw [ofExpr, if_pos rfl, unread]⟩

/-- Parentheses make no difference. -/
theorem grouped (h : IsExact e v fits) : IsExact (.grouped e) v fits where
  value f := by rw [ofExpr, h.value f]
  unread f := by
    obtain ⟨what, unread⟩ := h.unread f
    exact ⟨what, by rw [ofExpr, unread]⟩

/-- No other integer is read. -/
theorem of_int (h : IsExact e v fits) {i : Int} (read : ofExpr e = .int i) : fits ∧ i = v := by
  by_cases f : fits
  · exact ⟨f, MarkerValue.int.inj (read.symm.trans (h.value f))⟩
  · obtain ⟨what, unread⟩ := h.unread f
    rw [read] at unread
    cases unread

theorem eq_int_iff (h : IsExact e v fits) : ofExpr e = .int v ↔ fits :=
  ⟨fun read => (h.of_int read).1, h.value⟩

/-- What is shown is the number, where it fits. -/
theorem text?_eq_some_iff (h : IsExact e v fits) {shown : String} :
    (ofExpr e).text? = some shown ↔ fits ∧ shown = toString v := by
  by_cases f : fits
  · rw [h.value f, text?, Option.some.injEq, Decimal.ofInt_eq_toString]
    exact ⟨fun eq => ⟨f, eq.symm⟩, fun told => told.2.symm⟩
  · obtain ⟨what, unread⟩ := h.unread f
    constructor
    · intro told
      rw [unread] at told
      cases told
    · exact fun told => absurd told.1 f

end IsExact

/-! ### Literals -/

theorem isExact_int (negative : Bool) (n : Nat) (suffix written : String) :
    IsExact (.literal (.int negative n suffix written)) (if negative then -n else n)
      (intRange (if negative then -n else n) = true) := by
  have read : ofExpr (.literal (.int negative n suffix written)) =
      if intRange (if negative then -n else n) then .int (if negative then -n else n)
      else .unsupported written := by
    rw [ofExpr]
    rfl
  exact ⟨fun fits => by rw [read, if_pos fits], fun unfit => ⟨written, by rw [read, if_neg unfit]⟩⟩

/-- A literal has no sign, so it fits if it is below `2 ^ 63`. -/
theorem isExact_of_isDecimal {l : Literal} {n : Nat} (h : l.IsDecimal n) :
    IsExact (.literal l) n (n < 9223372036854775808) := by
  obtain ⟨written, rfl⟩ := h.exists_eq
  refine (isExact_int false n "" written).congr ?_
  show intRange n = true ↔ _
  rw [intRange_iff]
  omega

/-- Behind `=`, a literal has its own sign, and every integer that fits is a value. -/
theorem isExact_of_negated {l l' : Literal} {n : Nat} (h : l.IsDecimal n)
    (sign : Parser.negated? l = some l') :
    IsExact (.literal l') (-n) (intRange (-n) = true) := by
  obtain ⟨written, rfl⟩ := h.exists_eq
  obtain rfl : Literal.int true n "" ("-" ++ written) = l' := Option.some.inj sign
  exact isExact_int true n "" ("-" ++ written)

/-! ### Integer arguments -/

variable {e : Expr} {v : Int}

/-- **The literal decides**: an expression has a value if the number in its midst fits, and then it is the
number that is denoted. -/
theorem isExact_of_denotes (h : e.Denotes v) : IsExact e v (v.natAbs < 9223372036854775808) := by
  induction h with
  | literal h => exact isExact_of_isDecimal h
  | negated h ih =>
    rw [Int.natAbs_neg]
    exact ih.negated
  | grouped h ih => exact ih.grouped

/-- **No negation leaves the range.** -/
theorem negates_inRange (h : e.Denotes v) {i : Int} (met : Negates e i) : intRange (-i) = true := by
  induction h with
  | literal => cases met
  | negated h ih =>
    cases met with
    | here read =>
      obtain ⟨fits, rfl⟩ := (isExact_of_denotes h).of_int read
      rw [intRange_iff]
      omega
    | operand met => exact ih met
  | grouped h ih =>
    cases met with
    | inner met => exact ih met

/-- Of the integers that fit, the least one alone is not below `2 ^ 63` without its sign, and no literal
without a sign denotes it. -/
theorem natAbs_lt_iff_of_denotes (h : e.Denotes v) :
    v.natAbs < 9223372036854775808 ↔
      intRange v = true ∧ (v = -9223372036854775808 → ∃ l, e = .literal l) := by
  rw [intRange_iff]
  constructor
  · intro small
    exact ⟨by omega, fun least => by omega⟩
  · rintro ⟨range, alone⟩
    by_cases least : v = -9223372036854775808
    · obtain ⟨l, rfl⟩ := alone least
      cases h
      omega
    · omega

theorem isExact_of_isIntegerArgument (h : IsIntegerArgument e v) :
    IsExact e v (intRange v = true ∧ (v = -9223372036854775808 → ∃ l, e = .literal l)) := by
  cases h with
  | unsigned h => exact (isExact_of_denotes h).congr (natAbs_lt_iff_of_denotes h)
  | signed h sign =>
    exact (isExact_of_negated h sign).congr ⟨fun fits => ⟨fits, fun _ => ⟨_, rfl⟩⟩, And.left⟩

theorem negates_inRange_of_isIntegerArgument (h : IsIntegerArgument e v) {i : Int}
    (met : Negates e i) : intRange (-i) = true := by
  cases h with
  | unsigned h => exact negates_inRange h met
  | signed => cases met

/-- **Integer arguments are exact, but for the least integer.**  No negation leaves the range of 64 bits;
the value is the integer that is denoted exactly if it fits and, where it is `-2 ^ 63`, the argument is a
literal with its own sign; every other integer is unsupported.  What is shown as text is the integer that
is denoted, and nothing where there is no value. -/
theorem integer_argument_exact_iff (h : IsIntegerArgument e v) :
    (∀ i, Negates e i → intRange (-i) = true) ∧
      (ofExpr e = .int v ↔
        intRange v = true ∧ (v = -9223372036854775808 → ∃ l, e = .literal l)) ∧
      (ofExpr e ≠ .int v → ∃ what, ofExpr e = .unsupported what) ∧
      ∀ shown, (ofExpr e).text? = some shown ↔ ofExpr e = .int v ∧ shown = toString v := by
  have read := isExact_of_isIntegerArgument h
  refine ⟨fun i met => negates_inRange_of_isIntegerArgument h met, read.eq_int_iff, fun ne => ?_,
    fun shown => ?_⟩
  · exact read.unread fun fits => ne (read.value fits)
  · rw [read.eq_int_iff]
    exact read.text?_eq_some_iff

/-- `-(-(9_223_372_036_854_775_807))`, the largest integer behind two signs. -/
def largestOffset : Expr :=
  .unary '-' (.grouped (.unary '-' (.grouped
    (.literal (.int false 9223372036854775807 "" "9_223_372_036_854_775_807")))))

theorem largest_offset_exact :
    IsIntegerArgument largestOffset 9223372036854775807 ∧
      ofExpr largestOffset = .int 9223372036854775807 ∧
      (ofExpr largestOffset).text? = some "9223372036854775807" := by
  have number : (Literal.int false 9223372036854775807 "" "9_223_372_036_854_775_807").IsDecimal
      9223372036854775807 :=
    ⟨"9_223_372_036_854_775_807".toList, ⟨'9', rfl, rfl⟩,
      Decimal.nat?_eq_some_iff.mp (by decide +kernel), by decide +kernel⟩
  have argument : IsIntegerArgument largestOffset 9223372036854775807 :=
    .unsigned (.negated (.grouped (.negated (.grouped (.literal number)))))
  obtain ⟨-, value, -, shown⟩ := integer_argument_exact_iff argument
  have read := value.mpr ⟨by decide +kernel, fun least => absurd least (by decide)⟩
  exact ⟨argument, read, (shown _).mpr ⟨read, by decide +kernel⟩⟩

/-- `-9223372036854775808`, the least integer. -/
def leastOffset : Expr :=
  .unary '-' (.literal (.int false 9223372036854775808 "" "9223372036854775808"))

/-- What is shown of each of the arguments that a text holds. -/
def shownArguments (text : String) : Option (List (Option String)) :=
  ((Token.scan? text.toList).bind Expr.list?).map fun es => es.map fun e => (ofExpr e).text?

/-- **The least integer is lost among the arguments.**  It fits into 64 bits, and the integer above it is
read; behind `=`, where the literal has its own sign, the least integer is read as well. -/
theorem least_offset_lost :
    (IsIntegerArgument leastOffset (-9223372036854775808) ∧ intRange (-9223372036854775808) = true ∧
      ofExpr leastOffset = .unsupported "expression" ∧ (ofExpr leastOffset).text? = none) ∧
    shownArguments "-9223372036854775808, -9223372036854775807" =
      some [none, some "-9223372036854775807"] ∧
    ∃ l, Parser.literal? [.punct '-' false, .literal (.int false 9223372036854775808 ""
        "9223372036854775808")] = some (l, []) ∧
      IsIntegerArgument (.literal l) (-9223372036854775808) ∧
      ofExpr (.literal l) = .int (-9223372036854775808) := by
  have number : (Literal.int false 9223372036854775808 "" "9223372036854775808").IsDecimal
      9223372036854775808 :=
    ⟨"9223372036854775808".toList, ⟨'9', rfl, rfl⟩,
      Decimal.nat?_eq_some_iff.mp (by decide +kernel), by decide +kernel⟩
  have signed : Parser.negated? (.int false 9223372036854775808 "" "9223372036854775808") =
      some (.int true 9223372036854775808 "" "-9223372036854775808") := by
    decide +kernel
  refine ⟨⟨.unsigned (.negated (.literal number)), by decide +kernel, rfl, rfl⟩, by decide +kernel,
    _, ?_, .signed number signed, rfl⟩
  rw [Parser.literal?, signed]
  rfl

end MarkerValue
end RouteBook
