import RouteBook.Describe.Chain
import RouteBook.Document.Endpoint
/-! # Dialects

A dialect is what a framework contributes to the extraction: which blocks are controllers, which
functions are handlers, and how a handler becomes endpoints.
-/
namespace RouteBook

/-- What the types of a source tree are described with. -/
structure Types where
  chain : Chain
  index : TypeIndex

namespace Types

def resolve (types : Types) (t : TypeTerm) : Logged Schema := types.chain.resolve types.index t

def resolveName (types : Types) (name : String) : Logged Schema :=
  types.chain.resolveName types.index name

end Types

structure Dialect where
  chain : Chain
  isController : Controller → Bool
  isHandler : Controller → Handler → Bool
  /-- The paths of a controller itself. -/
  paths : Controller → List String
  /-- The endpoints of a handler, given the routes of its controller and an endpoint that holds
  the documentation of the handler. -/
  endpoints : Types → List String → Handler → Endpoint → Logged (Except MissingData (List Endpoint))

end RouteBook
