import RouteBook.Declared.Marker
import RouteBook.Declared.TypeTerm
import RouteBook.Doc.Comment
/-! # Controllers

A controller is an `impl` block or a trait with the functions declared in it, its *handlers*.
Whether it is documented is decided later, by its markers; here every such block counts, also
one that is nested in a module or a function body.
-/
namespace RouteBook

/-- A parameter of a handler other than its receiver. -/
structure HandlerParam where
  /-- The name that the parameter binds, if it binds a single one. -/
  name : Option String
  type : TypeTerm
  markers : List Marker
  deriving Repr, Inhabited

structure Handler where
  name : String
  markers : List Marker
  doc : DocComment
  params : List HandlerParam
  /-- What the handler gives back, unless that carries no information. -/
  returns : Option TypeTerm
  deriving Repr, Inhabited

structure Controller where
  name : String
  markers : List Marker
  doc : DocComment
  handlers : List Handler
  deriving Repr, Inhabited

/-- The text of a documentation attribute. -/
def docChunk? (a : Source.Attribute) : Option String :=
  if a.isNamed "doc" then
    match a.content with
    | .value (.literal (.text s)) => some s
    | _ => none
  else none

/-- The documentation among attributes. -/
def DocComment.ofAttributes (attributes : List Source.Attribute) : DocComment :=
  DocComment.ofChunks (attributes.filterMap docChunk?)

/-- The single name that a pattern binds: its own, or the one inside it. -/
def boundName? : Source.Pattern → Option String
  | .name name => some name
  | .tupleStruct [inner] => boundName? inner
  | .reference inner => boundName? inner
  | .typed inner => boundName? inner
  | _ => none

namespace Controller

def paramOf (p : Source.Param) : HandlerParam where
  name := boundName? p.pattern
  type := TypeTerm.ofExpr p.type
  markers := Marker.ofAttributes p.attributes

def handlerOf (m : Source.Method) : Handler where
  name := m.signature.name
  markers := Marker.ofAttributes m.attributes
  doc := DocComment.ofAttributes m.attributes
  params := m.signature.params.map paramOf
  returns := (m.signature.output.map TypeTerm.ofExpr).filter fun t => !t.isUnit

def ofBlock (name : String) (attributes : List Source.Attribute)
    (methods : List Source.Method) : Controller where
  name := name
  markers := Marker.ofAttributes attributes
  doc := DocComment.ofAttributes attributes
  handlers := methods.map handlerOf

mutual
/-- The controllers that an item is or holds. -/
def ofItem : Source.Item → List Controller
  | .implBlock attributes target methods _ =>
    [ofBlock (TypeTerm.ofExpr target).name attributes methods]
  | .traitBlock attributes name methods _ => [ofBlock name attributes methods]
  | .structDecl _ _ _ nested => ofItems nested
  | .enumDecl _ _ nested => ofItems nested
  | .aliasDecl _ _ nested => ofItems nested
  | .other nested => ofItems nested

/-- The controllers of several items, in the order of the text. -/
def ofItems : List Source.Item → List Controller
  | [] => []
  | item :: items => ofItem item ++ ofItems items
end

end Controller
end RouteBook
