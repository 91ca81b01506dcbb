import RouteBook.Config.NodeDecoder
import RouteBook.Files.Tree
/-! # Configurations and pattern files

A configuration is read from a YAML file.  The paths in it are meant as seen from the directory
of that file.  It may name files that hold further patterns.
-/
namespace RouteBook
namespace Config

/-- The configuration that a text describes.  A blank text leaves everything at its default. -/
def ofText (text : String) : Except Cause Config :=
  let config? : Option Config := do
    if Text.blank text then return {}
    let document ← Yaml.Document.parse? text
    document.decoder.config? (document.root.getD Yaml.Node.empty)
  match config? with
  | some config => .ok config
  | none => .error (.config .malformed)

/-- The patterns that a text lists. -/
def patternsOf? (text : String) : Option (List String) := do
  if Text.blank text then return []
  let document ← Yaml.Document.parse? text
  document.decoder.list? document.text? (document.root.getD Yaml.Node.empty)

/-- Patterns and, after them, those in a file. -/
def withPatternsIn (files : Files) (patterns : List String) :
    Option String → Except Cause (List String)
  | none => .ok patterns
  | some file =>
    match files.readText file with
    | .error fault => .error (.config (.unreadablePatterns file fault))
    | .ok text =>
      match patternsOf? text with
      | some more => .ok (patterns ++ more)
      | none => .error (.config (.malformedPatterns file))

/-- The filter for the routes that are documented. -/
def pathFilter (files : Files) (c : Config) : Except Cause PathFilter := do
  let only ← withPatternsIn files c.onlyPatterns c.onlyPatternsFile
  let exclude ← withPatternsIn files c.excludePatterns c.excludePatternsFile
  (PathFilter.ofPatterns only exclude).mapError .pattern

/-- Everything that would otherwise fail halfway through a run. -/
def validate (files : Files) (c : Config) : Except Cause Unit := do
  c.check
  let _ ← c.pathFilter files

/-- The configuration with its paths as seen from a directory. -/
def inDirectory (dir : String) (c : Config) : Config :=
  { c with
    onlyPatternsFile := c.onlyPatternsFile.map (Path.join dir)
    excludePatternsFile := c.excludePatternsFile.map (Path.join dir)
    buildPath := c.buildPath.map (Path.join dir) }

/-- The configuration in a file. -/
def load (files : Files) (path : String) : Except Cause Config := do
  let text ← (files.readText path).mapError .unreadable
  let config ← ofText text
  return config.inDirectory ((Path.parent? path).getD "")

end Config
end RouteBook
