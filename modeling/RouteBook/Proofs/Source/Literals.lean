import RouteBook.Proofs.Source.Parsing
/-! # Parsing texts

What the rules for expressions make of a text in quotation marks with a comma behind it, or nothing:
the operand is the text, and neither a trailer nor an operator goes on with it
(`Parser.readsTexts_grammarAt`).
-/
namespace RouteBook
namespace Source
namespace Parser

/-- The tokens behind an element of a list with commas. -/
def EndsElement (tokens : List Token) : Prop :=
  tokens = [] ∨ ∃ joint more, tokens = .punct ',' joint :: more

variable {g : Grammar} {after : List Token}

/-- No operator begins with a comma. -/
theorem EndsElement.op (h : EndsElement after) {w : String} {c : Char}
    (hw : w.toList.head? = some c) (apart : c ≠ ',') : Parser.op w after = false := by
  rcases h with rfl | ⟨joint, more, rfl⟩
  · exact op_nil hw
  · exact op_of_ne hw apart joint more

theorem EndsElement.word (h : EndsElement after) (w : String) : Parser.word w after = false := by
  rcases h with rfl | ⟨joint, more, rfl⟩ <;> rfl

theorem EndsElement.group (h : EndsElement after) (d : Delimiter) :
    Parser.group d after = false := by
  rcases h with rfl | ⟨joint, more, rfl⟩ <;> rfl

/-- Nothing goes on with the operand. -/
theorem EndsElement.yields_trailers (h : EndsElement after) (e : Expr) :
    Yields (trailers g e) after e after := by
  refine (yields_rest after).bind ?_
  refine (yields_rest after).bind ?_
  have noDot : dot after = false := by
    rw [dot, h.op (c := '.') rfl (by decide), Bool.false_and]
  simp only [h.group, noDot, h.op (w := "?") (c := '?') rfl (by decide), Bool.false_and,
    Bool.false_eq_true, if_false]
  exact yields_pure e after

theorem EndsElement.binaryOp?_eq_none (h : EndsElement after) : binaryOp? after = none := by
  have heads : ∀ p ∈ binaryOps, ∃ c, p.1.toList.head? = some c ∧ c ≠ ',' := by
    have signs : ∀ p ∈ binaryOps, p.1.toList.head?.isSome ∧ p.1.toList.head? ≠ some ',' := by decide
    intro p hp
    obtain ⟨some?, other⟩ := signs p hp
    obtain ⟨c, hc⟩ := Option.isSome_iff_exists.mp some?
    exact ⟨c, hc, fun he => other (he ▸ hc)⟩
  rw [binaryOp?, List.find?_eq_none]
  intro p hp
  obtain ⟨c, hc, apart⟩ := heads p hp
  exact Bool.eq_false_iff.mp (h.op hc apart)

/-- No operator joins anything to it. -/
theorem EndsElement.yields_climb (h : EndsElement after) {structs : Bool} {e : Expr}
    (noRange : isRange e = false) (base : Binding) :
    Yields (climb g structs e base) after e after := by
  refine (yields_rest after).bind ?_
  refine (yields_rest after).bind ?_
  simp only [noRange, h.binaryOp?_eq_none, h.op (w := "=") (c := '=') rfl (by decide),
    h.op (w := "..") (c := '.') rfl (by decide), h.word, Bool.false_and, Bool.and_false,
    Bool.false_eq_true, if_false]
  exact yields_pure e after

/-- A text is an operand. -/
theorem yields_unary_text (h : EndsElement after) (s : String) (structs : Bool) :
    Yields (unaryRule g structs) (.literal (.text s) :: after) (.literal (.text s)) after := by
  have noAttributes : Yields (outerAttributes g) (.literal (.text s) :: after) []
      (.literal (.text s) :: after) := yields_many_done fun _ => rfl
  have operand : Yields (atom g structs) (.literal (.text s) :: after) (.literal (.text s)) after :=
    fun _ => rfl
  refine noAttributes.bind ((yields_rest _).bind ?_)
  exact operand.bind (h.yields_trailers _)

/-- A grammar that takes a text for an expression of its own. -/
def ReadsTexts (g : Grammar) : Prop :=
  ∀ (s : String) {after : List Token}, EndsElement after →
    Yields g.expr (.literal (.text s) :: after) (.literal (.text s)) after

/-- **A text is an expression**, with two levels of rules left. -/
theorem readsTexts_grammarAt (fuel : Nat) : ReadsTexts (grammarAt (fuel + 2)) :=
  fun s _ h => (yields_unary_text h s true).bind (h.yields_climb rfl .none)

end Parser
end Source
end RouteBook
