import RouteBook.Source.Token
/-! # Trees of Rust source

The trees keep what a reader of declarations asks for: names, types, attributes, the parameters
of functions, and so much of an expression that an attribute argument can be understood.  A
function body leaves only the items that are declared in it; they are found again as the
`nested` items of the item around them, in the order of the text.
-/
namespace RouteBook
namespace Source

/-! ### Types -/

/-- The keywords that are a segment of a path by themselves. -/
def pathKeywords : List String := ["super", "self", "crate", "try"]

/-- Whether a word names a segment of a path: it is no keyword but `Self`. -/
def Word.isName (w : Word) : Bool := !isKeyword w.text || w.text = "Self"

mutual
/-- A type as it is written. -/
inductive TypeExpr where
  | path (leadingColon : Bool) (segments : List Segment)
  | reference (target : TypeExpr)
  /-- A type in parentheses. -/
  | grouped (inner : TypeExpr)
  | slice (element : TypeExpr)
  | array (element : TypeExpr)
  | tuple (elements : List TypeExpr)
  /-- `impl …`, `dyn …`, or bare bounds: any type that meets them. -/
  | bounded (bounds : List Bound)
  | pointer (target : TypeExpr)
  | function
  | never
  | inferred
  | macroCall
  /-- A type that is passed over unread. -/
  | unread

/-- A segment of a path. -/
inductive Segment where
  | keyword (w : String) (isPathKeyword : w ∈ pathKeywords)
  | named (w : Word) (isName : w.isName = true) (arguments : Arguments)

/-- The arguments of a path segment; of those in angle brackets only the types are kept. -/
inductive Arguments where
  | absent
  | angle (types : List TypeExpr)
  | paren

/-- One of several bounds. -/
inductive Bound where
  | lifetime
  | trait (segments : List Segment)
  /-- A bound that is passed over unread. -/
  | unread
end

instance : Inhabited TypeExpr := ⟨.never⟩

namespace Segment

def name : Segment → String
  | keyword w _ => w
  | named w _ _ => w.text

/-- Whether the segment has no arguments at all. -/
def isPlain : Segment → Bool
  | keyword _ _ => true
  | named _ _ .absent => true
  | _ => false

/-- Whether the segment has arguments in parentheses. -/
def isCalled : Segment → Bool
  | named _ _ .paren => true
  | _ => false

end Segment

/-! ### Expressions and patterns -/

/-- An expression.  What no attribute argument is read from is told apart only as far as the
grammar needs it. -/
inductive Expr where
  | literal (value : Literal)
  | path (leadingColon : Bool) (segments : List Segment)
  | unary (op : Char) (operand : Expr)
  | array (items : List Expr)
  /-- An expression in parentheses. -/
  | grouped (inner : Expr)
  | assign (left right : Expr)
  | binary (op : String) (left right : Expr)
  | call
  | methodCall
  | macroCall (delimiter : Delimiter)
  | range (last : Option Expr)
  /-- A block, or a construct such as `if` that ends with one and may be a statement. -/
  | block
  /-- Anything else that ends with a closing brace. -/
  | braced
  /-- A construct such as `&x` or `return x` that ends with an expression. -/
  | leading (operand : Expr)
  | other

instance : Inhabited Expr := ⟨.other⟩

namespace Expr

/-- Whether the text of the expression ends with a closing brace. -/
def endsWithBrace : Expr → Bool
  | .block => true
  | .braced => true
  | .macroCall delimiter => delimiter = .brace
  | .assign _ right => right.endsWithBrace
  | .binary _ _ right => right.endsWithBrace
  | .unary _ operand => operand.endsWithBrace
  | .leading operand => operand.endsWithBrace
  | .range (some last) => last.endsWithBrace
  | _ => false

/-- Whether a statement made of the expression needs a semicolon before the next one. -/
def needsSemicolon : Expr → Bool
  | .block => false
  | .macroCall delimiter => delimiter ≠ .brace
  | _ => true

/-- Whether a match arm made of the expression needs a comma before the next one. -/
def needsComma : Expr → Bool
  | .block => false
  | _ => true

end Expr

/-- A pattern. -/
inductive Pattern where
  | name (name : String)
  | tupleStruct (elements : List Pattern)
  | reference (inner : Pattern)
  | typed (inner : Pattern)
  /-- A range that lacks one of its ends. -/
  | openRange
  | other

instance : Inhabited Pattern := ⟨.other⟩

/-! ### Attributes and items -/

/-- What stands behind the path of an attribute. -/
inductive Meta where
  | word
  | list (content : List Token)
  | value (e : Expr)

/-- An attribute such as `#[path(…)]`. -/
structure Attribute where
  leadingColon : Bool
  path : List String
  content : Meta

/-- Whether the path of the attribute is exactly the given word. -/
def Attribute.isNamed (a : Attribute) (word : String) : Bool :=
  !a.leadingColon && a.path == [word]

/-- A parameter of a function other than its receiver. -/
structure Param where
  attributes : List Attribute
  pattern : Pattern
  type : TypeExpr

/-- The head of a function. -/
structure Signature where
  name : String
  params : List Param
  output : Option TypeExpr

structure Method where
  attributes : List Attribute
  signature : Signature

structure Field where
  attributes : List Attribute
  name : String
  type : TypeExpr

/-- The fields of a structure. -/
inductive Fields where
  | unit
  | unnamed (types : List TypeExpr)
  | named (fields : List Field)

structure Variant where
  attributes : List Attribute
  name : String

/-- An item. -/
inductive Item where
  | implBlock (attributes : List Attribute) (target : TypeExpr) (methods : List Method)
      (nested : List Item)
  | traitBlock (attributes : List Attribute) (name : String) (methods : List Method)
      (nested : List Item)
  | structDecl (name : String) (generics : List String) (fields : Fields) (nested : List Item)
  | enumDecl (name : String) (variants : List Variant) (nested : List Item)
  | aliasDecl (name : String) (target : TypeExpr) (nested : List Item)
  /-- Any other item: a function, a module, a constant, … -/
  | other (nested : List Item)

instance : Inhabited Item := ⟨.other []⟩

end Source
end RouteBook
