import RouteBook.Document.Endpoint
import RouteBook.Pattern.PathFilter
/-! # Projects

A project holds books by their names, a book holds chapters and a chapter holds endpoints, each
in the order in which they came.  `Project.renderable` leaves out what must not be shown.
-/
namespace RouteBook

/-- The documentation of a controller. -/
structure Chapter where
  name : String
  description : Option String
  isIgnored : Bool
  /-- The book that the chapter belongs to, if it names one. -/
  book : Option String
  /-- The routes that every endpoint of the chapter begins with. -/
  baseUris : List String
  endpoints : List Endpoint
  deriving Repr, Inhabited

def Chapter.new (name : String) : Chapter := ⟨name, none, false, none, [], []⟩

structure Book where
  name : String
  chapters : List Chapter
  deriving Repr, Inhabited

namespace Book

/-- The book of the chapters that name none. -/
def defaultName : String := "default"

def new (name : String) : Book := ⟨name, []⟩

def isDefault (b : Book) : Bool := b.name == defaultName

end Book

structure Project where
  id : String
  name : String
  description : Option String
  version : Option String
  /-- Books by their names. -/
  books : List (String × Book)
  deriving Repr, Inhabited

namespace Project

def new (id name : String) : Project := ⟨id, name, none, none, []⟩

/-- Changes the book of the given name, which is added at the end if it is missing. -/
def changeBook (name : String) (f : Book → Book) : List (String × Book) → List (String × Book)
  | [] => [(name, f (Book.new name))]
  | (key, b) :: rest =>
    if key = name then (key, f b) :: rest else (key, b) :: changeBook name f rest

/-- Adds an empty book unless there is one of that name. -/
def addBook (p : Project) (name : String) : Project :=
  { p with books := changeBook name (fun b => b) p.books }

/-- Adds a chapter to the book that it names, or to the default book. -/
def addChapter (p : Project) (c : Chapter) : Project :=
  let add (b : Book) : Book := { b with chapters := b.chapters ++ [c] }
  { p with books := changeBook (c.book.getD Book.defaultName) add p.books }

def chapters (p : Project) : List Chapter := p.books.flatMap fun (_, b) => b.chapters

def endpoints (p : Project) : List Endpoint := p.chapters.flatMap (·.endpoints)

/-- Whether an endpoint is shown. -/
def shows (filter : PathFilter) (e : Endpoint) : Bool := !e.isIgnored && filter.keeps e.uri

/-- A chapter with the endpoints that are shown. -/
def shownChapter (filter : PathFilter) (c : Chapter) : Chapter :=
  { c with endpoints := c.endpoints.filter (shows filter) }

/-- The chapters of which something is shown. -/
def shownChapters (filter : PathFilter) (cs : List Chapter) : List Chapter :=
  ((cs.filter fun c => !c.isIgnored).map (shownChapter filter)).filter
    fun c => !c.endpoints.isEmpty

/-- The project without ignored endpoints and chapters, without endpoints that the filter does
not keep, and without what is empty then. -/
def renderable (p : Project) (filter : PathFilter) : Project :=
  let shown := p.books.map fun (key, b) =>
    (key, { b with chapters := shownChapters filter b.chapters })
  { p with books := shown.filter fun (_, b) => !b.chapters.isEmpty }

end Project
end RouteBook
