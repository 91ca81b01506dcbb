import RouteBook.AsciiDoc.Page
import RouteBook.Document.Export
import RouteBook.Yaml.Write
/-! # Rendering

A project as files: a document for every book, or the whole project as a single JSON or YAML
file.  The paths are relative to the directory that the files are written to.
-/
namespace RouteBook

inductive OutputFormat where
  | asciidoc
  | json
  | yaml
  deriving DecidableEq, Repr, Inhabited

namespace OutputFormat

def all : List OutputFormat := [.asciidoc, .json, .yaml]

def name : OutputFormat → String
  | .asciidoc => "asciidoc"
  | .json => "json"
  | .yaml => "yaml"

/-- The format of exactly that name. -/
def ofName? (name : String) : Option OutputFormat := all.find? (·.name == name)

end OutputFormat

/-- A file with its path as it is written.  Two files have one path if the components of their paths
are the same (`Path.components`). -/
structure RenderedFile where
  path : String
  content : String
  deriving DecidableEq, Repr, Inhabited

namespace Project

/-- A document for every book. -/
def toAsciiDoc (p : Project) : List RenderedFile :=
  p.books.map fun (_, b) =>
    ⟨p.id ++ "_" ++ b.name ++ ".adoc", Markup.text (Page.book p b)⟩

def jsonText (p : Project) : String := p.toJson.pretty

def yamlText (p : Project) : String := Yaml.write p.toJson

/-- The files of a project in a format. -/
def render (p : Project) : OutputFormat → List RenderedFile
  | .asciidoc => p.toAsciiDoc
  | .json => [⟨p.id ++ ".json", p.jsonText⟩]
  | .yaml => [⟨p.id ++ ".yaml", p.yamlText⟩]

end Project

/-- Several documents as one, with a line end between any two of them. -/
def mergeDocuments (stem : String) (parts : List RenderedFile) : RenderedFile :=
  ⟨stem ++ ".adoc", Text.joined "\n" (parts.map (·.content))⟩

end RouteBook
