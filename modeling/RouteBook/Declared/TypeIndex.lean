import RouteBook.Declared.Controller
import RouteBook.Declared.FieldRules
/-! # Declared types

The index of the structures, enumerations and aliases that are declared in some files, by name.
Of several declarations with one name the first counts.
-/
namespace RouteBook

/-- A field of a structure. -/
structure FieldShape where
  name : String
  type : TypeTerm
  rules : FieldRules
  /-- The value that stands for a missing one, if a marker names it. -/
  fallback : Option String
  remark : Option String
  deriving Repr, Inhabited

/-- The key under which the field is serialised. -/
def FieldShape.key (f : FieldShape) : String := f.rules.rename.getD f.name

/-- A structure with its type parameters. -/
structure RecordShape where
  name : String
  generics : List String
  fields : List FieldShape
  deriving Repr, Inhabited

/-- What a declared name stands for. -/
inductive Shape where
  | record (r : RecordShape)
  /-- One of several words. -/
  | choice (name : String) (variants : List String)
  /-- Another type. -/
  | synonym (target : TypeTerm)
  deriving Repr, Inhabited

namespace Shape

def fieldOf (f : Source.Field) : FieldShape where
  name := f.name
  type := TypeTerm.ofExpr f.type
  rules := FieldRules.ofAttributes f.attributes
  fallback := (Marker.find? (Marker.ofAttributes f.attributes) "default_value").bind
    (·.text? [Marker.positional])
  remark := (DocComment.ofAttributes f.attributes).description

/-- The shape of a structure.  A single field without a name makes it a synonym, and several
such fields are not documented. -/
def ofFields (name : String) (generics : List String) : Source.Fields → Shape
  | .unnamed [type] => .synonym (TypeTerm.ofExpr type)
  | .named fields => .record ⟨name, generics, fields.map fieldOf⟩
  | _ => .record ⟨name, generics, []⟩

/-- The words of an enumeration: those variants that are serialised, under their keys. -/
def variantNames (variants : List Source.Variant) : List String :=
  variants.filterMap fun v =>
    let rules := FieldRules.ofAttributes v.attributes
    if rules.skip then none else some (rules.rename.getD v.name)

mutual
/-- The declarations that an item is or holds, with their names. -/
def ofItem : Source.Item → List (String × Shape)
  | .structDecl name generics fields _ => [(name, ofFields name generics fields)]
  | .enumDecl name variants _ => [(name, .choice name (variantNames variants))]
  | .aliasDecl name target _ => [(name, .synonym (TypeTerm.ofExpr target))]
  | .implBlock _ _ _ nested => ofItems nested
  | .traitBlock _ _ _ nested => ofItems nested
  | .other nested => ofItems nested

/-- The declarations of several items, in the order of the text. -/
def ofItems : List Source.Item → List (String × Shape)
  | [] => []
  | item :: items => ofItem item ++ ofItems items
end

end Shape

/-- Declared types by name.  No name occurs twice. -/
structure TypeIndex where
  shapes : List (String × Shape)
  deriving Repr, Inhabited

namespace TypeIndex

def empty : TypeIndex := ⟨[]⟩

/-- The shape of a name. -/
def find? (index : TypeIndex) (name : String) : Option Shape := index.shapes.lookup name

/-- Adds a declaration unless its name is taken. -/
def add (index : TypeIndex) (decl : String × Shape) : TypeIndex :=
  if (index.find? decl.1).isSome then index else ⟨index.shapes ++ [decl]⟩

def size (index : TypeIndex) : Nat := index.shapes.length

/-- The index of the items of several files. -/
def ofFiles (files : List (List Source.Item)) : TypeIndex :=
  (files.flatMap Shape.ofItems).foldl add empty

end TypeIndex
end RouteBook
