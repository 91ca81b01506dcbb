import RouteBook.Run
/-! # The program

Takes in the files that a run may read, runs, and puts out what it prints and writes.
-/
namespace RouteBook

/-- What is said about the command line. -/
def usage : String :=
  "Usage: route-book [OPTIONS] <PROJECT_PATH>\n\n" ++
  "  -c, --config <FILE>            Configuration file\n" ++
  "  -f, --format <FORMAT>          Output format: asciidoc, json or yaml; repeatable\n" ++
  "  -o, --output <DIR>             Output directory; without it, output is printed\n" ++
  "  -w, --framework <FRAMEWORK>    Source framework: spring\n" ++
  "      --only <PATTERN>           Only document paths matching this pattern; repeatable\n" ++
  "      --exclude <PATTERN>        Skip paths matching this pattern; repeatable\n" ++
  "      --url-prefix <PREFIX>      What every documented path begins with\n" ++
  "      --id <ID>                  Project identifier, used in output file names\n" ++
  "      --name <NAME>              Project display name\n" ++
  "      --version-label <VERSION>  Documented version\n" ++
  "  -v, --verbose                  Verbose output\n" ++
  "  -h, --help                     Print help\n" ++
  "  -V, --version                  Print version\n"

/-- What is said about a command line that does not start a run. -/
def UsageFault.message : UsageFault → String
  | .unknownArgument => "error: unexpected argument"
  | .invalidValue => "error: invalid value"
  | .missingArgument => "error: the project path is missing"
  | .repeated => "error: an argument is given more than once"
  | .unexpectedValue => "error: unexpected value"
  | .helpWanted => usage
  | .versionWanted => "route-book 0.1.0"

/-- A single file or a directory without its entries; nothing if it cannot be read. -/
def readEntry (path : String) : IO (Option FileTree) := do
  try
    let there ← IO.FS.realPath path
    if ← there.isDir then return some .empty
    return some (.file (String.fromUTF8? (← IO.FS.readBinFile there)))
  catch _ => return none

/-- The tree below a directory, with the content of source files only, and without what a run
passes over. -/
partial def readTree (path : String) : IO FileTree := do
  let there ← IO.FS.realPath path
  let mut entries : List (String × FileTree) := []
  for entry in ← there.readDir do
    let name := entry.fileName
    let isDirectory ← entry.path.isDir
    let bare : FileTree := if isDirectory then .empty else .file none
    unless FileTree.isPassedOver Files.outputDirectories name bare do
      let inner := Path.join path name
      let tree ←
        if isDirectory then readTree inner
        else if Path.hasExtension "rs" name then pure ((← readEntry inner).getD bare)
        else pure bare
      entries := (name, tree) :: entries
  return .directory entries

/-- The files together with what stands at some paths. -/
def withEntries (files : Files) : List String → IO Files
  | [] => return files
  | path :: paths => do
    let files := match ← readEntry path with
      | some tree => files.add path tree
      | none => files
    withEntries files paths

/-- The files that a run with the given arguments may read. -/
def filesFor (a : Arguments) : IO Files := do
  let here ← IO.currentDir
  let names := (Text.pieces '/' here.toString).filter fun name => !Path.isStay name
  let none : Files := ⟨FileTree.put .empty names .empty, names⟩
  let files ← withEntries none [a.projectPath]
  let files ←
    if files.hasDirectory a.projectPath then
      pure (files.add a.projectPath (← readTree a.projectPath))
    else pure files
  let usual := Path.join a.projectPath Arguments.usualConfig
  let files ← withEntries files (a.configPath.getD usual :: a.configPath.toList)
  match a.loadConfigFile files with
  | .ok config =>
    withEntries files (config.onlyPatternsFile.toList ++ config.excludePatternsFile.toList)
  | .error _ => return files

/-- Writes a file below a directory that is made if need be. -/
def writeRendered (f : RenderedFile) : IO Unit := do
  match Path.parent? f.path with
  | some dir => if !dir.isEmpty then IO.FS.createDirAll dir
  | none => pure ()
  IO.FS.writeFile f.path f.content

/-- Runs with arguments that have been read. -/
def runProgram (a : Arguments) : IO UInt32 := do
  let result := (Run.run (← filesFor a) a).run
  for w in result.warnings do
    IO.eprintln ("[WARN] " ++ w.message)
  match result.value with
  | .error failure =>
    IO.eprintln ("Error: " ++ failure.message)
    return 1
  | .ok outcome =>
    IO.print outcome.output
    outcome.written.forM writeRendered
    return 0

end RouteBook

open RouteBook in
def main (arguments : List String) : IO UInt32 := do
  match Arguments.parse arguments with
  | .ok a => runProgram a
  | .error fault =>
    match fault with
    | .helpWanted | .versionWanted =>
      IO.println fault.message
      return 0
    | _ =>
      IO.eprintln fault.message
      return 2
