import RouteBook.Failure
import RouteBook.Files.Path
import RouteBook.Json.Basic
/-! # File trees

What a run reads and writes is a value: a tree of directories and files, seen from a working
directory.  A path is followed piece by piece; every piece but the last has to be a directory.
-/
namespace RouteBook

inductive FileTree where
  /-- A file with its text; `none` if its content is not valid UTF-8. -/
  | file (text : Option String)
  | directory (entries : List (String × FileTree))
  deriving Repr, Inhabited

namespace FileTree

def empty : FileTree := directory []

def isDirectory : FileTree → Bool
  | directory _ => true
  | file _ => false

/-- The entry of a directory with the given name. -/
def entry? (name : String) : FileTree → Option FileTree
  | directory entries => entries.lookup name
  | file _ => none

/-- What stands at the end of a way of names. -/
def at? : List String → FileTree → Option FileTree
  | [], tree => some tree
  | name :: names, tree => (tree.entry? name).bind (at? names)

/-- The tree with something else at the end of a way of names.  What is missing on the way, or
is a file, becomes a directory. -/
def put : FileTree → List String → FileTree → FileTree
  | _, [], new => new
  | tree, name :: names, new =>
    let entries := match tree with
      | directory entries => entries
      | file _ => []
    directory (insertPair name (put ((entries.lookup name).getD empty) names new) entries)

/-- What has been put somewhere is found there. -/
theorem at?_put (tree : FileTree) (names : List String) (new : FileTree) :
    at? names (put tree names new) = some new := by
  induction names generalizing tree with
  | nil => rfl
  | cons name names ih => simp [put, at?, entry?, lookup_insertPair_self, ih]

mutual
/-- All files below a directory that has the given path, with their texts. -/
def filesBelow (path : String) : FileTree → List (String × Option String)
  | file text => [(path, text)]
  | directory entries => filesOf path entries

/-- All files in the given entries of a directory. -/
def filesOf (path : String) : List (String × FileTree) → List (String × Option String)
  | [] => []
  | (name, tree) :: entries => filesBelow (Path.join path name) tree ++ filesOf path entries
end

end FileTree

/-- A file tree and the way from its root to the working directory. -/
structure Files where
  root : FileTree
  workingDirectory : List String
  deriving Repr, Inhabited

namespace Files

/-- One piece of a path, from the end of a way of names. -/
def step (root : FileTree) (way : List String) (piece : String) :
    Except FileFault (List String) :=
  match root.at? way with
  | none => .error .notFound
  | some (.file _) => .error .notDirectory
  | some (.directory entries) =>
    if Path.isStay piece then .ok way
    else if piece == ".." then .ok way.dropLast
    else if (entries.lookup piece).isSome then .ok (way ++ [piece])
    else .error .notFound

/-- The way of names that a path starts from. -/
def start (files : Files) (path : String) : List String :=
  if Path.isAbsolute path then [] else files.workingDirectory

/-- The way from the root to what a path leads to. -/
def locate (files : Files) (path : String) : Except FileFault (List String) :=
  if path.isEmpty then .error .notFound
  else (Text.pieces '/' path).foldlM (step files.root) (files.start path)

/-- What a path leads to. -/
def find (files : Files) (path : String) : Except FileFault FileTree := do
  let way ← files.locate path
  match files.root.at? way with
  | some tree => .ok tree
  | none => .error .notFound

/-- The way to which a path leads if every name on it is taken for a directory. -/
def wayOf (files : Files) (path : String) : List String :=
  (Text.pieces '/' path).foldl (fun way piece =>
    if Path.isStay piece then way else if piece == ".." then way.dropLast else way ++ [piece])
    (files.start path)

/-- The files with a tree put where a path leads. -/
def add (files : Files) (path : String) (tree : FileTree) : Files :=
  { files with root := files.root.put (files.wayOf path) tree }

def contains (files : Files) (path : String) : Bool := (files.find path).toOption.isSome

def hasDirectory (files : Files) (path : String) : Bool :=
  (files.find path).toOption.any FileTree.isDirectory

def hasFile (files : Files) (path : String) : Bool :=
  (files.find path).toOption.any fun tree => !tree.isDirectory

/-- The text of a file. -/
def readText (files : Files) (path : String) : Except FileFault String := do
  match ← files.find path with
  | .directory _ => .error .isDirectory
  | .file none => .error .notText
  | .file (some text) => .ok text

/-- What is in a directory. -/
def entries (files : Files) (path : String) : Except FileFault (List (String × FileTree)) := do
  match ← files.find path with
  | .directory entries => .ok entries
  | .file _ => .error .notDirectory

/-- The tree in which every directory on the way along a path exists, and the way to its end. -/
def makeWay (root : FileTree) (way : List String) :
    List String → Except FileFault (FileTree × List String)
  | [] => .ok (root, way)
  | piece :: pieces =>
    match step root way piece with
    | .ok way =>
      match root.at? way, pieces with
      | some (.file _), [] => .error .exists
      | _, _ => makeWay root way pieces
    | .error .notFound => makeWay (root.put (way ++ [piece]) .empty) (way ++ [piece]) pieces
    | .error fault => .error fault

/-- Makes a directory and what is missing on the way to it. -/
def makeDirectory (files : Files) (path : String) : Except FileFault Files := do
  if path.isEmpty then return files
  let (root, _) ← makeWay files.root (files.start path) (Text.pieces '/' path)
  return { files with root }

/-- Writes a file into a directory that is there. -/
def writeFile (files : Files) (path text : String) : Except FileFault Files :=
  match files.locate path with
  | .ok way =>
    match files.root.at? way with
    | some (.directory _) => .error .isDirectory
    | _ => .ok { files with root := files.root.put way (.file (some text)) }
  | .error .notFound => do
    let dir ← match Path.parent? path with
      | none => .error .notFound
      | some "" => .ok files.workingDirectory
      | some parent => files.locate parent
    return { files with root := files.root.put (dir ++ [Path.fileName path]) (.file (some text)) }
  | .error fault => .error fault

/-- Writes a file below a directory that is made if need be. -/
def write (files : Files) (path text : String) : Except Failure Files := do
  let files ← match Path.parent? path with
    | none => .ok files
    | some dir => (files.makeDirectory dir).mapError fun fault =>
      (Failure.ofCause (.files fault)).during ("Failed to create directory: " ++ dir)
  (files.writeFile path text).mapError fun fault =>
    (Failure.ofCause (.files fault)).during ("Failed to write to file: " ++ path)

end Files
end RouteBook
