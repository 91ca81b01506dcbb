import RouteBook.Source.Grammar
import RouteBook.Text.Pieces
/-! # Type terms

A type as far as documentation looks at it: a name applied to arguments, or an array.  Paths
keep their last segment only, references and parentheses vanish, and a bound stands for the
first trait in it.  Everything else becomes the name `Unknown`.

The text of a term (`TypeTerm.text`) is what readers see and what names the type while it is
being expanded.
-/
namespace RouteBook

/-- A type: a name with arguments, or an array of an element type. -/
inductive TypeTerm where
  | applied (name : String) (args : List TypeTerm)
  | array (element : TypeTerm)
  deriving Repr, Inhabited

namespace TypeTerm

mutual
/-- Whether two types are the same. -/
def decEq : (t u : TypeTerm) → Decidable (t = u)
  | .applied n ts, .applied m us =>
    match String.decEq n m, decEqs ts us with
    | isTrue hn, isTrue hts => isTrue (by rw [hn, hts])
    | isFalse hn, _ => isFalse fun h => hn (TypeTerm.applied.inj h).1
    | _, isFalse hts => isFalse fun h => hts (TypeTerm.applied.inj h).2
  | .array t, .array u =>
    match decEq t u with
    | isTrue h => isTrue (by rw [h])
    | isFalse h => isFalse fun he => h (TypeTerm.array.inj he)
  | .applied _ _, .array _ => isFalse nofun
  | .array _, .applied _ _ => isFalse nofun

/-- `decEq` on several types. -/
def decEqs : (ts us : List TypeTerm) → Decidable (ts = us)
  | [], [] => isTrue rfl
  | t :: ts, u :: us =>
    match decEq t u, decEqs ts us with
    | isTrue h, isTrue hs => isTrue (by rw [h, hs])
    | isFalse h, _ => isFalse fun he => h (List.cons.inj he).1
    | _, isFalse hs => isFalse fun he => hs (List.cons.inj he).2
  | [], _ :: _ => isFalse nofun
  | _ :: _, [] => isFalse nofun
end

instance : DecidableEq TypeTerm := decEq

/-- The name without arguments. -/
def named (name : String) : TypeTerm := .applied name []

/-- What stands for a type that cannot be documented. -/
def unknown : TypeTerm := named "Unknown"

/-- The type of what carries no information. -/
def unit : TypeTerm := named "()"

/-- The name of a type; an array has the name of its element. -/
def name : TypeTerm → String
  | .applied name _ => name
  | .array element => element.name

/-- The arguments of a type; an array has its element as the only one. -/
def args : TypeTerm → List TypeTerm
  | .applied _ args => args
  | .array element => [element]

def isArray : TypeTerm → Bool
  | .applied _ _ => false
  | .array _ => true

def isUnit (t : TypeTerm) : Bool := !t.isArray && t.name == "()"

/-- The first argument. -/
def first? (t : TypeTerm) : Option TypeTerm := t.args.head?

/-! ### The text of a type -/

mutual
/-- A type as readers see it: `Page<User, u8[]>`. -/
def text : TypeTerm → String
  | .applied name args => name ++ argsText args
  | .array element => element.text ++ "[]"

/-- The arguments in angle brackets, if there are any. -/
def argsText : List TypeTerm → String
  | [] => ""
  | t :: ts => "<" ++ t.text ++ moreText ts ++ ">"

/-- Further arguments, each behind a comma. -/
def moreText : List TypeTerm → String
  | [] => ""
  | t :: ts => ", " ++ t.text ++ moreText ts
end

/-- The text of a type is its name, and behind it brackets. -/
theorem text_eq_append : (t : TypeTerm) →
    ∃ rest : List Char, t.text.toList = t.name.toList ++ rest ∧
      ∀ c ∈ rest.head?, c = '<' ∨ c = '['
  | .applied name args => by
    refine ⟨(argsText args).toList, ?_, ?_⟩
    · rw [text, String.toList_append]
      rfl
    · cases args with
      | nil => exact fun _ h => by simp [argsText] at h
      | cons t ts =>
        intro c h
        rw [argsText, String.append_assoc, String.append_assoc, String.toList_append] at h
        have hc : c = '<' := by simpa using h.symm
        exact .inl hc
  | .array element => by
    obtain ⟨rest, he, hrest⟩ := text_eq_append element
    refine ⟨rest ++ ['[', ']'], ?_, ?_⟩
    · rw [text, String.toList_append, he, List.append_assoc]
      rfl
    · cases rest with
      | nil =>
        intro c h
        exact .inr (Option.some.inj h).symm
      | cons c rest => exact hrest

/-! ### Substitution -/

/-- Types that stand for names; the first binding of a name counts. -/
abbrev Bindings := List (String × TypeTerm)

mutual
/-- Replaces the names without arguments that are bound. -/
def substitute (bindings : Bindings) : TypeTerm → TypeTerm
  | .applied name args =>
    match args with
    | [] => (bindings.lookup name).getD (.applied name [])
    | t :: ts => .applied name (substitute bindings t :: substituteAll bindings ts)
  | .array element => .array (substitute bindings element)

/-- `substitute` on several types. -/
def substituteAll (bindings : Bindings) : List TypeTerm → List TypeTerm
  | [] => []
  | t :: ts => substitute bindings t :: substituteAll bindings ts
end

/-! ### Reading types -/

mutual
/-- The term for a type as it is written. -/
def ofExpr : Source.TypeExpr → TypeTerm
  | .path _ segments => ofPath segments
  | .reference target => ofExpr target
  | .grouped inner => ofExpr inner
  | .slice element => .array (ofExpr element)
  | .array element => .array (ofExpr element)
  | .tuple [] => unit
  | .bounded bounds => ofBounds bounds
  | _ => unknown

/-- The last segment of a path with its arguments. -/
def ofPath : List Source.Segment → TypeTerm
  | [] => unknown
  | [s] => ofSegment s
  | _ :: ss => ofPath ss

def ofSegment : Source.Segment → TypeTerm
  | .keyword w _ => named w
  | .named w _ arguments => .applied w.text (ofArguments arguments)

/-- The types among the arguments of a segment. -/
def ofArguments : Source.Arguments → List TypeTerm
  | .angle types => ofExprs types
  | _ => []

/-- `ofExpr` on several types. -/
def ofExprs : List Source.TypeExpr → List TypeTerm
  | [] => []
  | t :: ts => ofExpr t :: ofExprs ts

/-- The first trait that is named. -/
def ofBounds : List Source.Bound → TypeTerm
  | [] => unknown
  | .trait segments :: _ => ofPath segments
  | _ :: bs => ofBounds bs
end

/-- Reads a type that is given as text. -/
def parse? (text : String) : Option TypeTerm := (Source.TypeExpr.parse? text).map ofExpr

end TypeTerm
end RouteBook
