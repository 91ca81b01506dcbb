import RouteBook.Config.Basic
import RouteBook.Document.Project
import RouteBook.Extract.Dialect
import RouteBook.Framework
import RouteBook.Http.Uri
import RouteBook.Spring.Endpoints
/-! # From controllers to a project

Every controller becomes a chapter and every handler of it becomes endpoints.  A handler that
cannot be documented is left out with a warning; its neighbours are not touched by that.
-/
namespace RouteBook

/-- The dialect of a framework. -/
def Framework.dialect : Framework → Dialect
  | .spring => Spring.dialect

namespace Extract

/-- The tag that keeps what it stands on out of the documents. -/
def ignoreTag : String := "ignore"

/-- The tag that names the book of a chapter. -/
def bookTag : String := "book"

/-- An endpoint with the documentation of its handler. -/
def endpointFor (h : Handler) : Endpoint :=
  { Endpoint.new h.name with
    name := h.doc.summary?.getD h.name
    description := h.doc.description
    tags := h.doc.tags
    isIgnored := h.doc.hasTag ignoreTag }

/-- The book that a controller is filed under, if it names one. -/
def bookOf? (c : Controller) : Option String :=
  (c.doc.named? bookTag).bind fun tag => Text.nonBlank? tag.content

/-- The routes of a controller. -/
def baseUris (dialect : Dialect) (urlPrefix : String) (c : Controller) : List String :=
  Uri.compose [urlPrefix] (dialect.paths c)

/-- The endpoints of a handler; none with a warning if it cannot be documented. -/
def endpointsOf (dialect : Dialect) (types : Types) (uris : List String) (c : Controller)
    (h : Handler) : Logged (List Endpoint) := do
  match ← dialect.endpoints types uris h (endpointFor h) with
  | .ok endpoints => return endpoints
  | .error e =>
    Logged.warn (.skippedEndpoint e c.name)
    return []

/-- The endpoints of several handlers. -/
def endpointsOfAll (dialect : Dialect) (types : Types) (uris : List String) (c : Controller) :
    List Handler → Logged (List Endpoint)
  | [] => return []
  | h :: hs => do
    let endpoints ← endpointsOf dialect types uris c h
    return endpoints ++ (← endpointsOfAll dialect types uris c hs)

/-- The chapter of a controller. -/
def chapter (dialect : Dialect) (types : Types) (urlPrefix : String) (c : Controller) :
    Logged Chapter := do
  let uris := baseUris dialect urlPrefix c
  let endpoints ← endpointsOfAll dialect types uris c (c.handlers.filter (dialect.isHandler c))
  return {
    name := c.doc.summary?.getD c.name
    description := c.doc.description
    isIgnored := c.doc.hasTag ignoreTag
    book := bookOf? c
    baseUris := uris
    endpoints := endpoints }

/-- Adds the chapters of several controllers to a project. -/
def addChapters (dialect : Dialect) (types : Types) (urlPrefix : String) :
    Project → List Controller → Logged Project
  | p, [] => return p
  | p, c :: cs => do
    let ch ← chapter dialect types urlPrefix c
    addChapters dialect types urlPrefix (p.addChapter ch) cs

/-- The project of some source files, with everything that is in them. -/
def project (framework : Framework) (config : Config) (files : List (List Source.Item)) :
    Logged Project :=
  let dialect := framework.dialect
  let types : Types := ⟨dialect.chain, TypeIndex.ofFiles files⟩
  let controllers := (files.flatMap Controller.ofItems).filter dialect.isController
  addChapters dialect types config.urlPrefix
    { Project.new config.id config.displayName with
      description := config.description
      version := config.version }
    controllers

/-- How many of the controllers each framework understands, the one with most first.  Frameworks
that understand none are left out. -/
def detect (controllers : List Controller) : List (Framework × Nat) :=
  let counts := Framework.all.map fun f => (f, (controllers.filter f.dialect.isController).length)
  (counts.filter fun (_, n) => 0 < n).mergeSort fun a b => b.2 ≤ a.2

end Extract
end RouteBook
