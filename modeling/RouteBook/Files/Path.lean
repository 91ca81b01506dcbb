import RouteBook.Text.Pieces
/-! # Paths

A path is a text in which slashes separate the names on the way to a file.  What follows works
on the text alone; what a path leads to is a question for a file tree.
-/
namespace RouteBook
namespace Path

def isAbsolute (path : String) : Bool := path.toList.head? == some '/'

/-- A path as seen from a directory.  An absolute path is the same from everywhere. -/
def join (dir path : String) : String :=
  if isAbsolute path || dir.isEmpty then path
  else if dir.toList.getLast? == some '/' then dir ++ path
  else dir ++ "/" ++ path

/-- Whether a piece between two slashes leads to where one is already. -/
def isStay (piece : String) : Bool := piece.isEmpty || piece == "."

/-- The components of a path.  A slash at its beginning stands for the root, and a first point for
where one is; apart from those, only names and the pieces that go up count.  Texts with the same
components are the same path, as `a//b` and `a/b` are. -/
def components (path : String) : List String :=
  match Text.pieces '/' path with
  | [] => []
  | first :: rest =>
    let names := rest.filter (!isStay ·)
    if !first.isEmpty then first :: names
    else if rest.isEmpty then []
    else "/" :: names

/-- Pieces without those at the end that lead nowhere else. -/
def dropStays (pieces : List String) : List String := (pieces.reverse.dropWhile isStay).reverse

/-- The path without its last name; `none` if there is no name in it. -/
def parent? (path : String) : Option String :=
  match Text.pieces '/' path with
  | [] => none
  | first :: rest =>
    match dropStays rest with
    | [] => if first.isEmpty then none else some ""
    | names =>
      match dropStays names.dropLast with
      | [] => some (if first.isEmpty then "/" else first)
      | names => some (Text.joined "/" (first :: names))

/-- The last name of a path. -/
def fileName (path : String) : String := (Text.pieces '/' path).getLastD ""

/-- Whether a file name ends in a point and the given extension, with something before that. -/
def hasExtension (extension name : String) : Bool :=
  let ending := '.' :: extension.toList
  ending.isSuffixOf name.toList && ending.length < name.toList.length

end Path
end RouteBook
