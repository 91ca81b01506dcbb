import RouteBook.Decimal.Shortest
import RouteBook.Json.Basic
import RouteBook.Source.Grammar
/-! # Markers

A marker is an attribute on a declaration, reduced to its name and its arguments: `#[get("/x")]`
is the marker `get` whose argument `value` is a text.  Arguments are values that can be read off
the source; anything that would have to be evaluated is kept as *unsupported* and counts as
absent in every look-up.
-/
namespace RouteBook

/-- The value of an argument. -/
inductive MarkerValue where
  | text (s : String)
  | bool (b : Bool)
  /-- An integer that fits into 64 bits with a sign. -/
  | int (i : Int)
  | float (x : Binary64)
  /-- The last segment of a path. -/
  | path (name : String)
  | list (items : List MarkerValue)
  /-- Something that is no value, with its kind or its text. -/
  | unsupported (what : String)
  deriving Repr, Inhabited

namespace MarkerValue

/-- The integers that an argument may have as its value. -/
def intRange (i : Int) : Bool := -Int.pow 2 63 ≤ i && i < Int.pow 2 63

/-- What kind of expression it is that gives no value. -/
def kindOf : Source.Expr → String
  | .call => "function call"
  | .methodCall => "method call"
  | .macroCall _ => "macro invocation"
  | .binary _ _ _ => "binary expression"
  | .literal _ => "literal"
  | _ => "expression"

/-- The value of a literal. -/
def ofLiteral : Source.Literal → MarkerValue
  | .text s => .text s
  | .bool b => .bool b
  | .int negative n _ written =>
    let i : Int := if negative then -n else n
    if intRange i then .int i else .unsupported written
  | .float negative digits exponent _ =>
    let x := Binary64.ofDecimal false digits exponent
    .float (if negative then x.neg else x)
  | .char c => .text c.toString
  | .bytes => .unsupported "literal"

mutual
/-- The value of an expression. -/
def ofExpr : Source.Expr → MarkerValue
  | .literal l => ofLiteral l
  | .unary op operand =>
    if op = '-' then
      match ofExpr operand with
      | .int i => .int (-i)
      | .float x => .float x.neg
      | _ => .unsupported "expression"
    else .unsupported "expression"
  | .path _ segments =>
    match segments.getLast? with
    | some s => .path s.name
    | none => .unsupported "expression"
  | .array items => .list (ofExprs items)
  | .grouped inner => ofExpr inner
  | e => .unsupported (kindOf e)

/-- The values of several expressions. -/
def ofExprs : List Source.Expr → List MarkerValue
  | [] => []
  | e :: es => ofExpr e :: ofExprs es
end

/-- A text or a path, as text. -/
def word? : MarkerValue → Option String
  | .text s => some s
  | .path s => some s
  | _ => none

def bool? : MarkerValue → Option Bool
  | .bool b => some b
  | _ => none

/-- The text of a single value. -/
def text? : MarkerValue → Option String
  | .text s => some s
  | .path s => some s
  | .bool b => some (if b then "true" else "false")
  | .int i => some (Decimal.ofInt i)
  | .float x => some (Decimal.plain x)
  | .list _ => none
  | .unsupported _ => none

/-- The texts of a single value or of the values in a list. -/
def texts : MarkerValue → List String
  | .list items => items.filterMap text?
  | v => v.text?.toList

def isSupported : MarkerValue → Bool
  | .unsupported _ => false
  | _ => true

end MarkerValue

/-- A marker with its arguments in the order in which their names first occur. -/
structure Marker where
  name : String
  args : List (String × MarkerValue)
  deriving Repr, Inhabited

namespace Marker

/-- The name of what is given without one. -/
def positional : String := "value"

/-- An argument that has a name. -/
def namedArg? : Source.Expr → Option (String × Source.Expr)
  | .assign (.path false [segment]) right =>
    if segment.isPlain then some (segment.name, right) else none
  | _ => none

/-- The arguments that a list of expressions gives.  Those without a name come last and
together: one is a value of its own, several are a list. -/
def argsOf (es : List Source.Expr) : List (String × MarkerValue) :=
  let args := (es.filterMap namedArg?).foldl
    (fun args (key, e) => insertPair key (MarkerValue.ofExpr e) args) []
  match es.filter fun e => (namedArg? e).isNone with
  | [] => args
  | [e] => insertPair positional (MarkerValue.ofExpr e) args
  | es => insertPair positional (.list (MarkerValue.ofExprs es)) args

/-- The marker that an attribute is, unless it is documentation. -/
def ofAttribute? (a : Source.Attribute) : Option Marker := do
  if a.isNamed "doc" then none
  let name ← a.path.getLast?
  match a.content with
  | .word => some ⟨name, []⟩
  | .value e => some ⟨name, [(positional, MarkerValue.ofExpr e)]⟩
  | .list content => some ⟨name, ((Source.Expr.list? content).map argsOf).getD []⟩

/-- The markers among attributes. -/
def ofAttributes (attributes : List Source.Attribute) : List Marker :=
  attributes.filterMap ofAttribute?

/-- The first of the named arguments that is there and supported. -/
def arg? (m : Marker) (keys : List String) : Option MarkerValue :=
  keys.findSome? fun key => (m.args.lookup key).filter MarkerValue.isSupported

/-- The text of the first of the named arguments that is there and supported. -/
def text? (m : Marker) (keys : List String) : Option String := (m.arg? keys).bind (·.text?)

def bool? (m : Marker) (keys : List String) : Option Bool := (m.arg? keys).bind (·.bool?)

def texts (m : Marker) (keys : List String) : List String :=
  ((m.arg? keys).map (·.texts)).getD []

/-- The first marker with a given name. -/
def find? (markers : List Marker) (name : String) : Option Marker :=
  markers.find? (·.name == name)

/-- Whether there is a marker with a given name. -/
def has (markers : List Marker) (name : String) : Bool := (find? markers name).isSome

end Marker
end RouteBook
