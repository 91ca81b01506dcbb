import RouteBook.Source.Parser
/-! # The categories of the grammar

The rules of the grammar need each other, and each rule is a definition of its own.  A rule
therefore takes the parsers of all categories as an argument, a `Grammar`; the rules are tied
together at the end, where every use of a category inside a rule goes one level down.  This
module also holds the rules for attributes, which stand in front of nearly everything.
-/
namespace RouteBook
namespace Source

/-- The categories that rules use recursively. -/
inductive Category where
  /-- A type; `plus` says whether it may go on with a plus sign. -/
  | type (plus : Bool)
  /-- An expression; `structs` says whether it may be a structure literal. -/
  | expr (structs : Bool)
  /-- An expression without binary operators. -/
  | unary (structs : Bool)
  /-- An expression at the start of a statement, which ends early if it is a block. -/
  | standing
  | pattern
  /-- Statements up to the end of the tokens. -/
  | statements
  | item
  /-- What a `use` item brings in; `rooted` says whether a leading `::` is allowed. -/
  | useTree (rooted : Bool)

/-- What the parser of a category gives.  An item is noted, and the items inside statements
are. -/
abbrev Category.Tree : Category → Type
  | .type _ => TypeExpr
  | .expr _ => Expr
  | .unary _ => Expr
  | .standing => Expr
  | .pattern => Pattern
  | .statements => Unit
  | .item => Unit
  | .useTree _ => Unit

/-- A parser for every category. -/
abbrev Grammar := (c : Category) → Parser c.Tree

namespace Grammar

variable (g : Grammar)

def type : Parser TypeExpr := g (.type true)

/-- A type that does not go on with a plus sign. -/
def typeNoPlus : Parser TypeExpr := g (.type false)

def expr : Parser Expr := g (.expr true)

/-- An expression that a block may follow at once. -/
def exprNoBrace : Parser Expr := g (.expr false)

def pattern : Parser Pattern := g .pattern

/-- A block. -/
def block : Parser Unit := Parser.inside .brace (g .statements)

end Grammar

namespace Parser

/-- A path without any arguments, as it stands in an attribute or before a macro call. -/
def plainPath : Parser (Bool × List String) := do
  let leadingColon ← optOp "::"
  let start : Look := fun tokens =>
    ident tokens || ["super", "self", "Self", "crate"].any fun w => word w tokens
  let segment : Parser String := do
    if ← sees start then takeAnyWord else fail
  let first ← segment
  let others ← many do
    if ← optOp "::" then return some (← segment)
    return none
  return (leadingColon, first :: others)

/-- What stands inside the brackets of an attribute. -/
def attributeBody (g : Grammar) : Parser Attribute := do
  let (leadingColon, path) ←
    if ← optWord "unsafe" then pure (false, ["unsafe"]) else plainPath
  match ← rest with
  | .group _ content :: tokens => do
    setRest tokens
    return ⟨leadingColon, path, .list content⟩
  | tokens =>
    if op "=" tokens then do
      takeOp "="
      let behind ← rest
      match literal? behind with
      | some (l, []) => do
        setRest []
        return ⟨leadingColon, path, .value (.literal l)⟩
      | _ =>
        if op "#" behind && group .bracket (skip 1 behind) then fail
        else return ⟨leadingColon, path, .value (← g.expr)⟩
    else return ⟨leadingColon, path, .word⟩

/-- The attributes in front of what they belong to. -/
def outerAttributes (g : Grammar) : Parser (List Attribute) :=
  manyWhile (op "#") do
    takeOp "#"
    inside .bracket (attributeBody g)

/-- The attributes at the start of what they belong to. -/
def innerAttributes (g : Grammar) : Parser (List Attribute) :=
  manyWhile (fun tokens => op "#" tokens && op "!" (skip 1 tokens)) do
    takeOp "#"
    takeOp "!"
    inside .bracket (attributeBody g)

end Parser
end Source
end RouteBook
