import RouteBook.Failure
import RouteBook.Framework
import RouteBook.Render
/-! # Configurations

What is documented, under which names, and in which formats.  Everything has a default.
-/
namespace RouteBook

/-- A directory that is documented as a project of its own. -/
structure SourceModule where
  /-- The name of the directory, wherever it is found. -/
  directory : String
  /-- Takes the place of the route prefix of the whole configuration. -/
  urlPrefix : Option String
  deriving DecidableEq, Repr, Inhabited

structure Config where
  /-- The identifier of the project, with which the names of its files begin. -/
  id : String := "api"
  name : Option String := none
  description : Option String := none
  version : Option String := none
  /-- The name of the framework; without one it is detected. -/
  framework : Option String := none
  /-- What every route begins with. -/
  urlPrefix : String := ""
  onlyPatterns : List String := []
  excludePatterns : List String := []
  /-- A file with more selecting patterns. -/
  onlyPatternsFile : Option String := none
  /-- A file with more excluding patterns. -/
  excludePatternsFile : Option String := none
  /-- Where the rendered files go; without it they are printed. -/
  buildPath : Option String := none
  formats : List OutputFormat := [.asciidoc]
  /-- Without modules the whole project directory is documented as one. -/
  modules : List SourceModule := []
  /-- How many levels deep modules are looked for. -/
  maxDepth : Nat := 3
  /-- Whether there is one more document, which joins all others. -/
  mergesDocuments : Bool := false
  /-- The name of that document. -/
  mergedName : Option String := none
  deriving DecidableEq, Repr, Inhabited

namespace Config

/-- A name without the blanks around it; the identifier if nothing is left of it. -/
def nameOrId (c : Config) (name : Option String) : String :=
  (name.bind Text.nonBlank?).getD c.id

def displayName (c : Config) : String := c.nameOrId c.name

/-- The name of the document that joins all others. -/
def mergedStem (c : Config) : String := c.nameOrId c.mergedName

/-- The configuration of a module: the directory gives its name, and a prefix of its own wins. -/
def forModule (c : Config) (m : SourceModule) : Config :=
  { c with
    id := m.directory
    name := some m.directory
    urlPrefix := m.urlPrefix.getD c.urlPrefix
    modules := []
    mergesDocuments := false
    mergedName := none }

/-- The framework that is asked for, if any is. -/
def framework? (c : Config) : Except Cause (Option Framework) :=
  match c.framework with
  | none => .ok none
  | some name =>
    if Text.blank name then .ok none
    else
      match Framework.ofName? name with
      | some f => .ok (some f)
      | none => .error (.unknownFramework name)

/-! ### Checks -/

/-- A check that a configuration passes or not. -/
def require (holds : Bool) (fault : ConfigFault) : Except Cause Unit :=
  if holds then .ok () else .error (.config fault)

/-- A route prefix is empty or begins with a slash. -/
def checkPrefix (given : String) : Except Cause Unit :=
  require (given.isEmpty || given.startsWith "/") (.prefixWithoutSlash given)

/-- A module is named by a single directory, without the way to it. -/
def checkModule (m : SourceModule) : Except Cause Unit := do
  let name := Text.trimmed m.directory
  require (!name.isEmpty && !Text.hasChar name '/' && !Text.hasChar name '\\')
    (.moduleName m.directory)
  match m.urlPrefix with
  | some given => checkPrefix given
  | none => return

/-- Everything that can be checked without looking at files. -/
def check (c : Config) : Except Cause Unit := do
  require (!Text.blank c.id) .emptyId
  require (!c.formats.isEmpty) .noFormat
  checkPrefix c.urlPrefix
  require (c.maxDepth ≠ 0) .zeroDepth
  c.modules.forM checkModule
  require (!c.mergesDocuments || c.formats.contains .asciidoc) .mergeWithoutAsciidoc
  let _ ← c.framework?

end Config
end RouteBook
