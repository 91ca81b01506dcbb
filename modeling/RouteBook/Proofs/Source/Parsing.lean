import RouteBook.Source.Grammar
/-! # Parsing types

What the rules of the grammar make of the tokens that a type is written with.  `Parser.Yields` says
that a parser consumes the front of some tokens and gives a value; runs are put together with
`Parser.Yields.bind`, along the definition of a rule.

Only those branches are followed that a name with arguments and the empty tuple take: segments of a
path (`Parser.yields_name`, `Parser.yields_called`), lists of arguments (`Parser.yields_angle`), and
from them the rule for types (`Parser.yields_path`, `Parser.yields_unit`).
-/
namespace RouteBook
namespace Source
namespace Parser

variable {α β : Type}

/-! ### Runs of parsers -/

/-- A parser consumes the tokens before `after`, notes nothing and gives `a`. -/
def Yields (p : Parser α) (before : List Token) (a : α) (after : List Token) : Prop :=
  ∀ nested, p ⟨before, nested⟩ = some (a, ⟨after, nested⟩)

theorem Yields.bind {p : Parser α} {f : α → Parser β} {before middle after : List Token} {a : α}
    {b : β} (h : Yields p before a middle) (k : Yields (f a) middle b after) :
    Yields (p >>= f) before b after := by
  intro nested
  show (p ⟨before, nested⟩).bind _ = _
  rw [h nested]
  exact k nested

theorem yields_pure (a : α) (tokens : List Token) : Yields (pure a) tokens a tokens :=
  fun _ => rfl

theorem yields_rest (tokens : List Token) : Yields rest tokens tokens tokens := fun _ => rfl

theorem yields_setRest (before after : List Token) : Yields (setRest after) before () after :=
  fun _ => rfl

theorem yields_sees (look : Look) (tokens : List Token) :
    Yields (sees look) tokens (look tokens) tokens := fun _ => rfl

theorem yields_takeOp {w : String} {tokens : List Token} (h : op w tokens = true) :
    Yields (takeOp w) tokens () (tokens.drop w.length) := by
  refine (yields_rest tokens).bind ?_
  rw [if_pos h]
  exact yields_setRest _ _

theorem yields_optOp_false {w : String} {tokens : List Token} (h : op w tokens = false) :
    Yields (optOp w) tokens false tokens := by
  refine (yields_sees (op w) tokens).bind ?_
  rw [h]
  exact yields_pure false tokens

theorem yields_steps_done {step : Parser (Option α)} {tokens : List Token}
    (h : Yields step tokens none tokens) (fuel : Nat) :
    Yields (steps step (fuel + 1)) tokens [] tokens :=
  h.bind (yields_pure [] tokens)

theorem yields_many_done {step : Parser (Option α)} {tokens : List Token}
    (h : Yields step tokens none tokens) : Yields (many step) tokens [] tokens :=
  (yields_rest tokens).bind (yields_steps_done h _)

/-- **A list with separators**, as a parser reads it: it ends where `stop` holds, and between two
elements a separator is consumed. -/
inductive Separated (stop : Look) (separator : String) (p : Parser α) :
    List Token → List α → List Token → Prop
  | nil {tokens : List Token} (stops : stop tokens = true) :
      Separated stop separator p tokens [] tokens
  | last {tokens after : List Token} {a : α} (goes : stop tokens = false)
      (element : Yields p tokens a after) (stops : stop after = true)
      (shorter : after.length < tokens.length) : Separated stop separator p tokens [a] after
  | cons {tokens middle after : List Token} {a : α} {as : List α} (goes : stop tokens = false)
      (element : Yields p tokens a middle) (more : stop middle = false)
      (separates : op separator middle = true) (shorter : middle.length < tokens.length)
      (others : Separated stop separator p (middle.drop separator.length) as after) :
      Separated stop separator p tokens (a :: as) after

variable {stop : Look} {separator : String} {p : Parser α} {tokens after : List Token}

theorem yields_separatedStep_done (h : stop tokens = true) :
    Yields (separatedStep stop separator p) tokens none tokens := by
  refine (yields_sees stop tokens).bind ?_
  rw [h]
  exact yields_pure none tokens

theorem yields_separatedStep_last {a : α} (goes : stop tokens = false)
    (element : Yields p tokens a after) (stops : stop after = true) :
    Yields (separatedStep stop separator p) tokens (some a) after := by
  refine (yields_sees stop tokens).bind ?_
  rw [goes]
  refine element.bind ((yields_sees stop after).bind ?_)
  rw [stops]
  exact yields_pure (some a) after

theorem yields_separatedStep {a : α} {middle : List Token} (goes : stop tokens = false)
    (element : Yields p tokens a middle) (more : stop middle = false)
    (separates : op separator middle = true) :
    Yields (separatedStep stop separator p) tokens (some a) (middle.drop separator.length) := by
  refine (yields_sees stop tokens).bind ?_
  rw [goes]
  refine element.bind ((yields_sees stop middle).bind ?_)
  rw [more]
  exact (yields_takeOp separates).bind (yields_pure (some a) _)

theorem Separated.yields_steps {as : List α} (h : Separated stop separator p tokens as after)
    {fuel : Nat} (enough : tokens.length < fuel) :
    Yields (steps (separatedStep stop separator p) fuel) tokens as after := by
  induction h generalizing fuel with
  | nil stops =>
    obtain ⟨fuel, rfl⟩ := Nat.exists_eq_add_of_lt enough
    exact yields_steps_done (yields_separatedStep_done stops) _
  | last goes element stops shorter =>
    obtain ⟨more, rfl⟩ : ∃ more, fuel = more + 1 + 1 := ⟨fuel - 2, by omega⟩
    refine (yields_separatedStep_last goes element stops).bind ?_
    exact (yields_steps_done (yields_separatedStep_done stops) _).bind (yields_pure _ _)
  | @cons tokens middle after a as goes element more separates shorter others ih =>
    obtain ⟨fuel, rfl⟩ : ∃ rest, fuel = rest + 1 := ⟨fuel - 1, by omega⟩
    have dropped : (middle.drop separator.length).length ≤ middle.length := by
      rw [List.length_drop]
      exact Nat.sub_le _ _
    refine (yields_separatedStep goes element more separates).bind ?_
    exact (ih (by omega)).bind (yields_pure _ _)

theorem Separated.yields {as : List α} (h : Separated stop separator p tokens as after) :
    Yields (separatedUntil stop separator p) tokens as after :=
  (yields_rest tokens).bind (h.yields_steps (Nat.lt_succ_self _))

/-! ### What stands before and behind a type -/

/-- A word that a type begins with: a name, or a keyword that is a segment of a path.  The keyword
`try` is one behind `::` only. -/
def StartsPath (w : Word) : Prop := w.isName = true ∨ w.text ∈ ["super", "self", "crate"]

/-- The tokens of a type that is a path or the empty tuple. -/
def StartsType (tokens : List Token) : Prop :=
  (∃ w more, tokens = .ident w :: more ∧ StartsPath w) ∨ ∃ more, tokens = .group .paren [] :: more

/-- The tokens behind a type inside angle brackets, or behind the whole type. -/
def EndsType (tokens : List Token) : Prop :=
  ∀ token ∈ tokens.head?, ∃ joint, token = .punct ',' joint ∨ token = .punct '>' joint

theorem StartsType.append {tokens : List Token} (h : StartsType tokens) (more : List Token) :
    StartsType (tokens ++ more) := by
  rcases h with ⟨w, others, rfl, starts⟩ | ⟨others, rfl⟩
  · exact .inl ⟨w, others ++ more, rfl, starts⟩
  · exact .inr ⟨others ++ more, rfl⟩

theorem StartsType.length_pos {tokens : List Token} (h : StartsType tokens) :
    0 < tokens.length := by
  rcases h with ⟨w, others, rfl, -⟩ | ⟨others, rfl⟩
  · exact Nat.succ_pos _
  · exact Nat.succ_pos _

/-- No other keyword begins a path. -/
theorem StartsPath.ne {w : Word} (h : StartsPath w) {k : String} (keyword : isKeyword k = true)
    (other : k ∉ ["super", "self", "crate", "Self"]) : w.text ≠ k := by
  rintro rfl
  rcases h with name | member
  · simp only [Word.isName, keyword, Bool.not_true, Bool.false_or, decide_eq_true_eq] at name
    rw [name] at other
    exact other (by decide)
  · simp only [List.mem_cons, List.not_mem_nil, or_false] at member other
    rcases member with h | h | h <;> simp [h] at other

/-- A sign other than its first character does not begin an operator. -/
theorem op_of_ne {w : String} {c d : Char} (hw : w.toList.head? = some c) (h : c ≠ d)
    (joint : Bool) (tokens : List Token) : op w (.punct d joint :: tokens) = false := by
  obtain ⟨cs, hcs⟩ := List.head?_eq_some_iff.mp hw
  rw [op, hcs]
  cases cs with
  | nil => simp [beginsWith, h]
  | cons e cs => simp [beginsWith, h]

theorem op_nil {w : String} {c : Char} (hw : w.toList.head? = some c) : op w [] = false := by
  obtain ⟨cs, hcs⟩ := List.head?_eq_some_iff.mp hw
  rw [op, hcs]
  cases cs <;> rfl

theorem op_ident {w : String} {c : Char} (hw : w.toList.head? = some c) (v : Word)
    (tokens : List Token) : op w (.ident v :: tokens) = false := by
  obtain ⟨cs, hcs⟩ := List.head?_eq_some_iff.mp hw
  rw [op, hcs]
  cases cs <;> rfl

/-- A type does not begin with a closing bracket. -/
theorem StartsType.not_close {tokens : List Token} (h : StartsType tokens) :
    op ">" tokens = false := by
  rcases h with ⟨w, others, rfl, -⟩ | ⟨others, rfl⟩
  · exact op_ident (c := '>') rfl w others
  · rfl

/-- Behind a type no operator goes on with it. -/
theorem EndsType.op {tokens : List Token} (h : EndsType tokens) {w : String} {c : Char}
    (hw : w.toList.head? = some c) (comma : c ≠ ',') (close : c ≠ '>') :
    Parser.op w tokens = false := by
  cases tokens with
  | nil => exact op_nil hw
  | cons token tokens =>
    obtain ⟨joint, rfl | rfl⟩ := h token rfl
    · exact op_of_ne hw comma joint tokens
    · exact op_of_ne hw close joint tokens

/-! ### Paths -/

variable {g : Grammar} {bound : Parser Bound} {w : Word} {s : Segment}

/-- A keyword is a segment by itself. -/
theorem yields_keyword (h : w.text ∈ pathKeywords) (tokens : List Token) :
    Yields (segment g bound false) (.ident w :: tokens) (.keyword w.text h) tokens := by
  refine (yields_rest _).bind ?_
  refine (yields_setRest _ tokens).bind ?_
  rw [dif_pos h]
  exact yields_pure _ _

theorem notMem_pathKeywords (h : w.isName = true) : w.text ∉ pathKeywords := by
  intro member
  simp only [pathKeywords, List.mem_cons, List.not_mem_nil, or_false] at member
  rcases member with he | he | he | he <;> simp [Word.isName, he, isKeyword, keywords] at h

/-- A name is a segment. -/
theorem yields_name (h : w.isName = true) (ends : EndsType after) :
    Yields (segment g bound false) (.ident w :: after) (.named w h .absent) after := by
  refine (yields_rest _).bind ?_
  refine (yields_setRest _ after).bind ?_
  rw [dif_neg (notMem_pathKeywords h), dif_pos h]
  have noArguments : ((!false && op "<" after && !op "<=" after)
      || (op "::" after && op "<" (skip 2 after))) = false := by
    have opens : op "<" after = false := ends.op (c := '<') rfl (by decide) (by decide)
    have colons : op "::" after = false := ends.op (c := ':') rfl (by decide) (by decide)
    rw [opens, colons]
    rfl
  rw [if_neg (by rw [noArguments]; exact Bool.false_ne_true)]
  exact yields_pure _ _

/-- A name with arguments in angle brackets is a segment. -/
theorem yields_called (h : w.isName = true) {joint : Bool} {arguments : Arguments}
    (starts : StartsType tokens)
    (inner : Yields (angleArguments g bound) (.punct '<' joint :: tokens) arguments after) :
    Yields (segment g bound false) (.ident w :: .punct '<' joint :: tokens)
      (.named w h arguments) after := by
  refine (yields_rest _).bind ?_
  refine (yields_setRest _ (.punct '<' joint :: tokens)).bind ?_
  rw [dif_neg (notMem_pathKeywords h), dif_pos h]
  have less : op "<=" (.punct '<' joint :: tokens) = false := by
    rcases starts with ⟨v, more, rfl, -⟩ | ⟨more, rfl⟩
    · simp [op, beginsWith]
    · simp [op, beginsWith]
  have opens : op "<" (.punct '<' joint :: tokens) = true := by simp [op, beginsWith]
  rw [if_pos (by rw [less, opens]; rfl)]
  refine (yields_optOp_false (op_of_ne (c := ':') rfl (by decide) joint tokens)).bind ?_
  exact inner.bind (yields_pure _ _)

/-- A path of one segment. -/
theorem yields_singlePath (hseg : Yields (segment g bound false) (.ident w :: tokens) s after)
    (ends : EndsType after) :
    Yields (path g bound false) (.ident w :: tokens) (false, [s]) after := by
  refine (yields_optOp_false (op_ident (c := ':') rfl w tokens)).bind ?_
  refine hseg.bind ?_
  refine (yields_many_done ?_).bind (yields_pure _ _)
  refine (yields_rest after).bind ?_
  rw [ends.op (c := ':') rfl (by decide) (by decide)]
  exact yields_pure none after

/-- A path of one segment as a type. -/
theorem yields_pathType {plus : Bool}
    (hseg : Yields (segment g (Parser.bound g) false) (.ident w :: tokens) s after)
    (ends : EndsType after) :
    Yields (pathType g plus false) (.ident w :: tokens) (.path false [s]) after := by
  have qualified : Yields (qualifiedPath g (Parser.bound g) false) (.ident w :: tokens)
      (false, false, [s]) after := by
    refine (yields_sees _ _).bind ?_
    rw [op_ident (c := '<') rfl w tokens]
    exact (yields_singlePath hseg ends).bind (yields_pure _ _)
  refine qualified.bind ?_
  refine (yields_rest after).bind ?_
  have mark : op "!" after = false := ends.op (c := '!') rfl (by decide) (by decide)
  have more : op "+" after = false := ends.op (c := '+') rfl (by decide) (by decide)
  simp only [mark, more, Bool.false_and, Bool.and_false, Bool.false_or, Bool.false_eq_true,
    if_false]
  exact yields_pure _ after

/-! ### Types -/

/-- A type that is a path of one segment. -/
theorem yields_path {plus : Bool} (starts : StartsPath w)
    (hseg : Yields (segment g (Parser.bound g) false) (.ident w :: tokens) s after)
    (ends : EndsType after) :
    Yields (typeRule g plus) (.ident w :: tokens) (.path false [s]) after := by
  have apart : ∀ k, isKeyword k = true → k ∉ ["super", "self", "crate", "Self"] →
      word k (.ident w :: tokens) = false := by
    intro k keyword other
    simp only [word, starts.ne keyword other, decide_false]
  have isFunction : (["fn", "unsafe", "extern"].any fun k => word k (.ident w :: tokens)) = false := by
    simp only [List.any_cons, List.any_nil, apart "fn" (by decide) (by decide),
      apart "unsafe" (by decide) (by decide), apart "extern" (by decide) (by decide), Bool.or_false]
  have isPath : (ident (.ident w :: tokens) ||
      ["super", "self", "Self", "crate"].any fun k => word k (.ident w :: tokens)) = true := by
    rcases starts with name | member
    · simp only [Word.isName, Bool.or_eq_true, decide_eq_true_eq] at name
      rcases name with name | name
      · simp only [ident, name, Bool.true_or]
      · simp [word, name]
    · simp only [List.mem_cons, List.not_mem_nil, or_false] at member
      rcases member with h | h | h <;> simp [word, h]
  have noFor : Yields (optBoundLifetimes g) (.ident w :: tokens) false (.ident w :: tokens) := by
    refine (yields_sees (word "for") _).bind ?_
    rw [apart "for" (by decide) (by decide)]
    exact yields_pure false _
  refine noFor.bind ((yields_rest _).bind ?_)
  simp only [isFunction, isPath, group, Bool.false_and, Bool.false_eq_true, if_false, Bool.true_or,
    if_true]
  exact yields_pathType hseg ends

/-- The empty tuple. -/
theorem yields_unit {plus : Bool} (after : List Token) :
    Yields (typeRule g plus) (.group .paren [] :: after) (.tuple []) after := by
  have noFor : Yields (optBoundLifetimes g) (.group .paren [] :: after) false
      (.group .paren [] :: after) := fun _ => rfl
  refine noFor.bind ((yields_rest _).bind ?_)
  exact fun _ => rfl

/-- The types that can stand in angle brackets without being taken for anything else. -/
def IsArgument (e : TypeExpr) : Prop :=
  e = .tuple [] ∨ ∃ s : Segment, e = .path false [s] ∧ s.isCalled = false

/-- A type in angle brackets. -/
theorem yields_genericArgument {bound : Parser Bound} {e : TypeExpr} (starts : StartsType tokens)
    (argument : IsArgument e) (htype : Yields g.type tokens e after) (ends : EndsType after) :
    Yields (genericArgument g bound) tokens (some e) after := by
  have noLifetime : lifetime tokens = false := by
    rcases starts with ⟨w, more, rfl, -⟩ | ⟨more, rfl⟩ <;> rfl
  have noLiteral : literal tokens = false := by
    rcases starts with ⟨w, more, rfl, path⟩ | ⟨more, rfl⟩
    · have notTrue := path.ne (k := "true") (by decide) (by decide)
      have notFalse := path.ne (k := "false") (by decide) (by decide)
      simp only [literal, literal?, notTrue, notFalse, if_false, Option.isSome_none]
    · rfl
  have noBlock : group .brace tokens = false := by
    rcases starts with ⟨w, more, rfl, -⟩ | ⟨more, rfl⟩ <;> rfl
  refine (yields_rest _).bind ?_
  simp only [noLifetime, noLiteral, noBlock, Bool.false_and, Bool.or_false, Bool.false_eq_true,
    if_false]
  refine htype.bind ?_
  rcases argument with rfl | ⟨s, rfl, called⟩
  · exact yields_pure _ _
  · simp only [called, Bool.false_eq_true, if_false]
    -- neither a binding nor a constraint follows
    refine (yields_optOp_false (ends.op (c := '=') rfl (by decide) (by decide))).bind ?_
    refine (yields_optOp_false (ends.op (c := ':') rfl (by decide) (by decide))).bind ?_
    exact yields_pure _ _

/-- Arguments in angle brackets. -/
theorem yields_angle {bound : Parser Bound} {joint joint' : Bool} {types : List TypeExpr}
    (list : Separated (op ">") "," (genericArgument g bound) tokens (types.map some)
      (.punct '>' joint' :: after)) :
    Yields (angleArguments g bound) (.punct '<' joint :: tokens) (.angle types) after := by
  have opens : op "<" (.punct '<' joint :: tokens) = true := by simp [op, beginsWith]
  have closes : op ">" (.punct '>' joint' :: after) = true := by simp [op, beginsWith]
  refine (yields_takeOp opens).bind ?_
  refine list.yields.bind ?_
  refine (yields_takeOp closes).bind ?_
  have all : (types.map some).filterMap id = types := by simp
  rw [all]
  exact yields_pure _ _

end Parser
end Source
end RouteBook
