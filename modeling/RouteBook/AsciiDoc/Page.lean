import RouteBook.AsciiDoc.Markup
import RouteBook.Document.Project
/-! # Books as documents

How a book with its chapters and endpoints is laid out: for every endpoint the request and the
response, each as a listing and a table of its fields.
-/
namespace RouteBook
namespace Page

def attributes : List (String × String) :=
  [("doctype", "book"), ("toc", "left"), ("toclevels", "2"), ("toc-title", "TOC"),
    ("source-highlighter", "highlightjs")]

def tableHeader : List String := ["Key", "Type", "Condition", "Def", "Remark"]

def rowCells (r : Row) : List String :=
  [r.key, r.type, r.condition, r.fallback.getD "", r.remark.getD ""]

def table (rows : List (String × Row)) : Markup :=
  .table tableHeader (rows.map fun (_, r) => rowCells r)

/-- The lines of a string. -/
def linesOf (s : String) : List String := (Text.lines s.toList).map String.ofList

/-- The line of a header, with what its tag says about it. -/
def headerLine (e : Endpoint) (h : Header) : String :=
  let remark := ((e.param? h.key).map (·.content)).getD ""
  String.ofList (Text.trimEnd ("header: " ++ h.text ++ "  " ++ remark).toList)

def requestLines (e : Endpoint) : List String :=
  [e.requestLine] ++ e.inHeaders.map (fun (_, h) => headerLine e h)
    ++ if e.hasRequestBody then "" :: linesOf e.parameterText else []

def responseLines (e : Endpoint) : List String :=
  let headers := e.outHeaders.map fun (_, h) => "header: " ++ h.text
  if e.hasResponseBody then
    headers ++ (if headers.isEmpty then [] else [""]) ++ linesOf e.responseText
  else headers ++ ["N/A"]

def endpoint (e : Endpoint) : List Markup :=
  [.title 2 e.name, .paragraph e.description,
    .title 4 "request", .listing "HTTP" (requestLines e), table e.requestRows,
    .title 4 "response", .listing "JSON" (responseLines e), table e.responseRows]

def chapter (c : Chapter) : List Markup :=
  .title 1 c.name :: .paragraph c.description :: c.endpoints.flatMap endpoint

/-- The title of a book: that of the project, and the name of the book unless it is the default
book. -/
def title (p : Project) (b : Book) : String :=
  if b.isDefault then p.name else p.name ++ " - " ++ b.name

def book (p : Project) (b : Book) : List Markup :=
  [.header (title p b) attributes] ++ (p.version.map fun v => .paragraph ("version:" ++ v)).toList
    ++ .paragraph p.description :: b.chapters.flatMap chapter

end Page
end RouteBook
