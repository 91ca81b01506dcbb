import RouteBook.Files.Tree
/-! # Walking through a tree

The sources below a directory, and the directories of given names below it.  Both come in the
order of the names, each directory with all that is below it before its next neighbour.  What is
hidden is passed over, and so are directories that hold build output.
-/
namespace RouteBook
namespace FileTree

mutual
/-- The tree with the entries of every directory in the order of their names. -/
def sorted : FileTree → FileTree
  | file text => file text
  | directory entries =>
    directory ((sortedEntries entries).mergeSort fun a b => decide (a.1 ≤ b.1))

/-- Entries in the order in which they are, each of them sorted. -/
def sortedEntries : List (String × FileTree) → List (String × FileTree)
  | [] => []
  | (name, tree) :: entries => (name, sorted tree) :: sortedEntries entries
end

/-- Whether an entry is passed over: it is hidden, or a directory of one of the given names. -/
def isPassedOver (skipped : List String) (name : String) (tree : FileTree) : Bool :=
  name.startsWith "." || (tree.isDirectory && skipped.contains name)

mutual
/-- The source files at and below what stands at the given path. -/
def sourcesBelow (skipped : List String) (path : String) : FileTree → List String
  | file _ => if Path.hasExtension "rs" (Path.fileName path) then [path] else []
  | directory entries => sourcesAmong skipped path entries

/-- The source files at and below some entries of a directory. -/
def sourcesAmong (skipped : List String) (path : String) : List (String × FileTree) → List String
  | [] => []
  | (name, tree) :: entries =>
    (if isPassedOver skipped name tree then []
      else sourcesBelow skipped (Path.join path name) tree)
      ++ sourcesAmong skipped path entries
end

mutual
/-- The directories of one of the given names that are so many levels below a directory, or
fewer. -/
def directoriesBelow (skipped names : List String) (depth : Nat) (path : String) :
    FileTree → List String
  | file _ => []
  | directory entries =>
    match depth with
    | 0 => []
    | depth + 1 => directoriesAmong skipped names depth path entries

/-- The directories of one of the given names among some entries of a directory, and so many
levels below those or fewer. -/
def directoriesAmong (skipped names : List String) (depth : Nat) (path : String) :
    List (String × FileTree) → List String
  | [] => []
  | (name, tree) :: entries =>
    (if !tree.isDirectory || isPassedOver skipped name tree then []
      else
        (if names.contains name then [Path.join path name] else [])
          ++ directoriesBelow skipped names depth (Path.join path name) tree)
      ++ directoriesAmong skipped names depth path entries
end

end FileTree

namespace Files

/-- The names of directories that hold no sources. -/
def outputDirectories : List String := ["target"]

/-- What is in a directory that has to be there. -/
def treeAt (files : Files) (path : String) : Except Failure FileTree :=
  match files.entries path with
  | .ok entries => .ok (FileTree.sorted (.directory entries))
  | .error fault =>
    .error ((Failure.ofCause (.files fault)).during ("Failed to read directory: " ++ path))

/-- The source files below a directory.  Further directory names may be skipped. -/
def sources (files : Files) (path : String) (skipped : List String := []) :
    Except Failure (List String) := do
  let tree ← files.treeAt path
  return tree.sourcesBelow (outputDirectories ++ skipped) path

/-- The directories of one of the given names, at most so many levels below a directory; the
first level is always looked at. -/
def directories (files : Files) (path : String) (names : List String) (depth : Nat)
    (skipped : List String := []) : Except Failure (List String) := do
  let tree ← files.treeAt path
  return tree.directoriesBelow (outputDirectories ++ skipped) names (max 1 depth) path

end Files
end RouteBook
