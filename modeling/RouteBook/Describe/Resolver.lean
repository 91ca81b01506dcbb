import RouteBook.Declared.TypeIndex
import RouteBook.Schema.Fields
import RouteBook.Warning
/-! # Resolvers

A resolver describes the types that it knows and answers *unavailable* for any other.  Resolvers
are asked one after another, and the first available answer counts (`Resolver.first`).  To
describe the parts of a type, a resolver goes back to the whole chain through its `Scope`.
-/
namespace RouteBook

/-- What a resolver may use. -/
structure Scope where
  /-- The declared types. -/
  index : TypeIndex
  /-- Describes a part of the type at hand. -/
  resolve : TypeTerm → Logged Schema

abbrev Resolver := Scope → TypeTerm → Logged Schema

namespace Resolver

/-- The answer for a type that a resolver does not know. -/
def unknown (t : TypeTerm) : Logged Schema := pure (Schema.unavailable t.text)

/-- Asks the resolvers in order, and `last` if none of them has an answer. -/
def first (last : Resolver) (scope : Scope) (t : TypeTerm) : List Resolver → Logged Schema
  | [] => last scope t
  | r :: rs => do
    let s ← r scope t
    if s.isAvailable then return s else first last scope t rs

end Resolver

/-- What a resolver of names may use. -/
structure NameScope where
  /-- Describes a type. -/
  resolve : TypeTerm → Logged Schema
  /-- Describes a type by a shorter name. -/
  resolveName : String → Logged Schema

/-- Describes a type that is given by its name in a text. -/
abbrev NameResolver := NameScope → String → Logged Schema

namespace NameResolver

/-- Asks the resolvers in order, and `last` if none of them has an answer. -/
def first (last : NameResolver) (scope : NameScope) (name : String) :
    List NameResolver → Logged Schema
  | [] => last scope name
  | r :: rs => do
    let s ← r scope name
    if s.isAvailable then return s else first last scope name rs

end NameResolver
end RouteBook
