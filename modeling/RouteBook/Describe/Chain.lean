import RouteBook.Describe.Standard
/-! # The chain of resolvers

`Chain.resolve` describes a type: first the plugins are asked, then the resolvers of the
standard library, and at last the declaration of the type counts.

Two things keep a description finite.  Types are described at most `maxNesting` levels deep,
which is the number that the recursion counts down.  And a declared type that is met again
inside its own description is a recursive marker: `expanding` holds the texts of the types that
are being described.
-/
namespace RouteBook

namespace Declared

/-- Bindings of the parameters of a structure to the arguments of a type.  Of several
parameters with one name the last counts. -/
def bindings (r : RecordShape) (t : TypeTerm) : TypeTerm.Bindings :=
  (r.generics.zip t.args).reverse

/-- What a field says about its schema, apart from its type. -/
def applyField (f : FieldShape) (s : Schema) : Schema :=
  let s := s.withKey f.key
  let s := if f.rules.default then s.withRequired false else s
  let s := match f.remark with
    | some remark => s.addRemark remark
    | none => s
  match f.fallback with
  | some written => s.setFallback written
  | none => s

/-- Adds a field to the description of a structure.  A field of unknown type is left out. -/
def addField (resolve : TypeTerm → Logged Schema) (r : RecordShape) (t : TypeTerm)
    (object : Schema) (f : FieldShape) : Logged Schema := do
  if f.rules.skip then return object
  let type := f.type.substitute (bindings r t)
  let s ← resolve type
  if !s.isAvailable then
    Logged.warn (.unresolvedField type r.name f.name)
    return object
  if f.rules.flatten then return object.merge s
  return object.addField (applyField f s)

/-- Adds several fields. -/
def addFields (resolve : TypeTerm → Logged Schema) (r : RecordShape) (t : TypeTerm) :
    Schema → List FieldShape → Logged Schema
  | object, [] => return object
  | object, f :: fs => do
    let object ← addField resolve r t object f
    addFields resolve r t object fs

/-- An enumeration is a text, one of its words. -/
def choice (name : String) (variants : List String) : Schema :=
  let s := Schema.ofText name (variants.headD "")
  if variants.isEmpty then s else s.addRemark ("enum: " ++ Text.joined ", " variants)

/-- Describes a type by its declaration.  `resolve` describes the parts of the type while the
type itself counts as being described. -/
def resolve (index : TypeIndex) (expanding : List String)
    (resolve : TypeTerm → Logged Schema) (t : TypeTerm) : Logged Schema :=
  match index.find? t.name with
  | none => Resolver.unknown t
  | some (.choice name variants) => return choice name variants
  | some (.record r) =>
    if expanding.contains t.text then return .recursive t.text
    else addFields resolve r t (.emptyObject t.text) r.fields
  | some (.synonym target) =>
    if expanding.contains t.text then return .recursive t.text
    else resolve target

end Declared

/-- The resolvers that a framework brings along. -/
structure Chain where
  plugins : List Resolver
  names : List NameResolver

namespace Chain

/-- The chain without plugins. -/
def standard : Chain := ⟨[], []⟩

/-- The number of resolvers that are asked before the declaration counts. -/
def length (chain : Chain) : Nat := chain.plugins.length + Standard.resolvers.length

/-- Describes a type, with so many levels left and those types being described. -/
def resolveAt (chain : Chain) (index : TypeIndex) : Nat → List String → TypeTerm → Logged Schema
  | 0, _, t => do
    Logged.warn (.nestedTooDeep t)
    return .recursive t.text
  | levels + 1, expanding, t =>
    let declared : Resolver := fun _ t =>
      Declared.resolve index expanding (resolveAt chain index levels (t.text :: expanding)) t
    Resolver.first declared ⟨index, resolveAt chain index levels expanding⟩ t
      (chain.plugins ++ Standard.resolvers)

/-- Describes a type. -/
def resolve (chain : Chain) (index : TypeIndex) (t : TypeTerm) : Logged Schema :=
  resolveAt chain index maxNesting [] t

/-- Describes a type by its name, through at most so many names. -/
def resolveNameAt (chain : Chain) (index : TypeIndex) : Nat → String → Logged Schema
  | 0, name => return .unavailable name
  | steps + 1, name =>
    let parsed : NameResolver := fun scope name =>
      match TypeTerm.parse? name with
      | some t => scope.resolve t
      | none => return .unavailable name
    NameResolver.first parsed ⟨chain.resolve index, resolveNameAt chain index steps⟩ name
      chain.names

/-- Describes a type by its name.  A resolver of names goes on with shorter names only, so there
are no more of them than the name has characters. -/
def resolveName (chain : Chain) (index : TypeIndex) (name : String) : Logged Schema :=
  resolveNameAt chain index (name.length + 1) name

end Chain
end RouteBook
