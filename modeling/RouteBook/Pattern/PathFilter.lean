import RouteBook.Pattern.GlobSet
import RouteBook.Pattern.PathPattern
/-! # Path filters

A filter decides which routes are documented.  It holds patterns that select routes and
patterns that exclude them.  As soon as there is a selecting pattern, the excluding ones are
not looked at.  The globs of either kind form a set, and it is the set that is asked about a route.
-/
namespace RouteBook

/-- The globs that select and those that exclude. -/
structure PathFilter where
  only : List (List Glob.Token)
  exclude : List (List Glob.Token)
  deriving DecidableEq, Repr, Inhabited

namespace PathFilter

/-- The filter that keeps every route. -/
def unrestricted : PathFilter := ⟨[], []⟩

/-- The globs of all patterns, or the error of the first malformed one. -/
def globsOf : List String → Except InvalidPattern (List (List Glob.Token))
  | [] => .ok []
  | pattern :: patterns => do
    let p ← PathPattern.parse pattern
    let globs ← globsOf patterns
    return p.globs ++ globs

/-- The filter for two lists of patterns. -/
def ofPatterns (only exclude : List String) : Except InvalidPattern PathFilter := do
  let only ← globsOf only
  let exclude ← globsOf exclude
  return ⟨only, exclude⟩

/-- Whether a route is documented, given how a set of globs answers about a path. -/
def keepsBy (asks : List (List Glob.Token) → List Char → Bool) (filter : PathFilter)
    (uri : String) : Bool :=
  let text := (Uri.parse uri).text.toList
  if filter.only.isEmpty then !asks filter.exclude text else asks filter.only text

/-- Whether a route is documented. -/
def keeps (filter : PathFilter) (uri : String) : Bool :=
  filter.keepsBy (Glob.finds Glob.isFileName) uri

def isUnrestricted (filter : PathFilter) : Bool :=
  filter.only.isEmpty && filter.exclude.isEmpty

end PathFilter
end RouteBook
