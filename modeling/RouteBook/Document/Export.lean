import RouteBook.Document.Project
/-! # Exporting projects

A project as a JSON value.  What is absent is left out; what only steers the rendering is left
out as well.
-/
namespace RouteBook

/-- A member that is there only if its value is. -/
def optMember (key : String) (value : Option Json) : List (String × Json) :=
  (value.map fun v => (key, v)).toList

def optText (key : String) (value : Option String) : List (String × Json) :=
  optMember key (value.map Json.text)

namespace Row

def toJson (r : Row) : Json :=
  .object ([("key", .text r.key), ("type", .text r.type), ("condition", .text r.condition)]
    ++ optText "default_value" r.fallback ++ optText "remark" r.remark)

end Row

def TagKind.name : TagKind → String
  | .param => "param"
  | .named => "named"

def Tag.toJson (t : Tag) : Json :=
  .object [("kind", .text t.kind.name), ("name", .text t.name), ("content", .text t.content)]

def Header.toJson (h : Header) : Json :=
  .object [("key", .text h.key), ("value", .text h.value)]

def Endpoint.toJson (e : Endpoint) : Json :=
  .object ([("id", .text e.id), ("name", .text e.name)]
    ++ optText "description" e.description
    ++ [("method", .text e.method.name), ("uri", .text e.uri),
      ("pathVariables", .object (e.pathVariables.map fun (k, v) => (k, .text v))),
      ("inHeaders", .object (e.inHeaders.map fun (k, h) => (k, h.toJson))),
      ("outHeaders", .object (e.outHeaders.map fun (k, h) => (k, h.toJson))),
      ("queryParameter", .bool e.usesQuery)]
    ++ optMember "parameter" e.parameter ++ optMember "response" e.response
    ++ [("requestRows", .array (e.requestRows.map fun (_, r) => r.toJson)),
      ("responseRows", .array (e.responseRows.map fun (_, r) => r.toJson)),
      ("tags", .array (e.tags.map Tag.toJson))])

def Chapter.toJson (c : Chapter) : Json :=
  .object ([("name", .text c.name)] ++ optText "description" c.description
    ++ [("sections", .array (c.endpoints.map Endpoint.toJson))])

def Book.toJson (b : Book) : Json :=
  .object [("name", .text b.name), ("chapters", .array (b.chapters.map Chapter.toJson))]

def Project.toJson (p : Project) : Json :=
  .object ([("id", .text p.id), ("name", .text p.name)]
    ++ optText "description" p.description ++ optText "version" p.version
    ++ [("books", .object (p.books.map fun (key, b) => (key, b.toJson)))])

end RouteBook
