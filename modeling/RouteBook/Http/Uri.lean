import RouteBook.Text.Pieces
/-! # Routes

A route is a list of path segments, none of them empty and none with blanks around it.  Its
text has a slash before every segment, and is a single slash when there is none.  `compose`
joins every path of one list with every path of another.
-/
namespace RouteBook

/-- A normalised route path. -/
structure Uri where
  segments : List String
  deriving DecidableEq, Repr, Inhabited

namespace Uri

/-- The segments of a path: what stands between slashes, trimmed, the empty ones left out. -/
def segmentsOf (path : String) : List String :=
  ((Text.splitAt '/' path.toList).map Text.trim).filter (· ≠ []) |>.map String.ofList

/-- The route without segments. -/
def root : Uri := ⟨[]⟩

/-- The route followed by the segments of a path. -/
def add (uri : Uri) (path : String) : Uri := ⟨uri.segments ++ segmentsOf path⟩

def parse (path : String) : Uri := root.add path

def isRoot (uri : Uri) : Bool := uri.segments.isEmpty

/-- The text of a route. -/
def text (uri : Uri) : String :=
  match uri.segments with
  | [] => "/"
  | segments => String.ofList (segments.flatMap fun s => '/' :: s.toList)

/-- Appends an element unless it is there already. -/
def appendNew (seen : List String) (s : String) : List String :=
  if s ∈ seen then seen else seen ++ [s]

/-- A list of paths, where no path at all acts as the empty path. -/
def orEmptyPath (paths : List String) : List String :=
  if paths.isEmpty then [""] else paths

/-- The texts of every parent followed by every fragment, parent by parent.  A text that
occurs again is left out. -/
def compose (parents fragments : List String) : List String :=
  ((orEmptyPath parents).flatMap fun parent =>
      (orEmptyPath fragments).map fun fragment => ((parse parent).add fragment).text)
    |>.foldl appendNew []

end Uri
end RouteBook
