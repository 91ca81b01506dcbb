import RouteBook.CommandLine.Arguments
import RouteBook.Config.Load
import RouteBook.Extract.Build
import RouteBook.Files.Walk
import RouteBook.Source.Grammar
/-! # Runs

A run finds the sources of a project, or of its modules, extracts the documentation and renders
it.  The files that it reads are a value, and what it writes or prints is its result.
-/
namespace RouteBook

/-- What may warn and what may fail. -/
abbrev Attempt := ExceptT Failure Logged

namespace Attempt

variable {α : Type}

/-- What cannot warn. -/
def ofExcept (result : Except Failure α) : Attempt α := ExceptT.mk (pure result)

/-- What cannot warn, with the bare cause of a failure. -/
def ofCause (result : Except Cause α) : Attempt α := ofExcept (result.mapError .ofCause)

def fail (cause : Cause) : Attempt α := throw (.ofCause cause)

def warn (w : Warning) : Attempt Unit := ExceptT.lift (Logged.warn w)

end Attempt

namespace Arguments

/-- The project has to be a directory, and a configuration that is named has to be a file. -/
def check (files : Files) (a : Arguments) : Except Cause Unit := do
  if !files.contains a.projectPath then throw (.missingProject a.projectPath)
  if !files.hasDirectory a.projectPath then throw (.projectNotDirectory a.projectPath)
  match a.configPath with
  | some path => if files.hasFile path then return else throw (.missingConfig path)
  | none => return

/-- The name of the configuration that is used if none is named. -/
def usualConfig : String := "apidoc.yml"

/-- The configuration file, if there is one. -/
def configFile? (files : Files) (a : Arguments) : Option String :=
  match a.configPath with
  | some path => some path
  | none => some (Path.join a.projectPath usualConfig) |>.filter files.hasFile

/-- The configuration in that file, or the default one. -/
def loadConfigFile (files : Files) (a : Arguments) : Except Failure Config :=
  match a.configFile? files with
  | none => .ok {}
  | some path => (Config.load files path).mapError fun cause =>
    (Failure.ofCause cause).during ("Failed to load configuration: " ++ path)

/-- The configuration of the run. -/
def loadConfig (files : Files) (a : Arguments) : Except Failure Config := do
  let config := a.override (← a.loadConfigFile files)
  (config.validate files).mapError fun cause =>
    (Failure.ofCause cause).during "Invalid configuration"
  return config

end Arguments

namespace Run

/-- The items of the source files that can be read.  Warns of every other one. -/
def readSources (files : Files) : List String → Logged (List (List Source.Item))
  | [] => return []
  | path :: paths => do
    let skip (fault : SourceFault) : Logged (List (List Source.Item)) := do
      Logged.warn (.skippedFile path fault)
      readSources files paths
    match files.readText path with
    | .error fault => skip (.unreadable fault)
    | .ok text =>
      match Source.Item.parseFile? text with
      | none => skip .malformed
      | some items => return items :: (← readSources files paths)

/-- The framework of some source files: the one that is asked for, or else the one that is
found in most controllers. -/
def frameworkOf (asked : Option Framework) (sources : List (List Source.Item)) :
    Except Failure Framework :=
  match asked with
  | some framework => .ok framework
  | none =>
    match Extract.detect (sources.flatMap Controller.ofItems) with
    | (framework, _) :: _ => .ok framework
    | [] => .error ((Failure.ofCause .frameworkNotDetected).during
      "Please specify a framework using --framework option.\nSupported frameworks: spring")

/-- The project below a directory, without what must not be shown. -/
def generate (files : Files) (path : String) (config : Config) (asked : Option Framework) :
    Attempt Project := do
  let paths ← Attempt.ofExcept (files.sources path)
  if paths.isEmpty then Attempt.fail .noSources
  let sources ← ExceptT.lift (readSources files paths)
  if sources.isEmpty then Attempt.fail .noParsedSources
  let failed := paths.length - sources.length
  if failed ≠ 0 then Attempt.warn (.unparsedFiles failed)
  let configured ← Attempt.ofCause config.framework?
  let framework ← Attempt.ofExcept (frameworkOf (asked <|> configured) sources)
  let project ← ExceptT.lift (Extract.project framework config sources)
  let filter ← Attempt.ofCause (config.pathFilter files)
  return project.renderable filter

/-- The projects of some module directories.  Warns of every one that fails. -/
def generateModules (files : Files) (config : Config) (asked : Option Framework) :
    List String → Logged (List Project)
  | [] => return []
  | dir :: dirs => do
    let isNamed (m : SourceModule) : Bool := Text.trimmed m.directory == Path.fileName dir
    match config.modules.find? isNamed with
    | none => generateModules files config asked dirs
    | some m =>
      match ← (generate files dir (config.forModule m) asked).run with
      | .ok project => return project :: (← generateModules files config asked dirs)
      | .error failure =>
        Logged.warn (.skippedModule dir failure)
        generateModules files config asked dirs

/-- Warns of the modules of which no directory was found. -/
def warnOfMissing (config : Config) (found : List String) : List String → Logged Unit
  | [] => return
  | name :: names => do
    if !found.contains name then Logged.warn (.missingModule name config.maxDepth)
    warnOfMissing config found names

/-- The projects of a run: one, or one for every module directory. -/
def generateAll (files : Files) (path : String) (config : Config) (asked : Option Framework) :
    Attempt (List Project) := do
  if config.modules.isEmpty then return [← generate files path config asked]
  let names := config.modules.map fun m => Text.trimmed m.directory
  let dirs ← Attempt.ofExcept (files.directories path names config.maxDepth)
  ExceptT.lift (warnOfMissing config (dirs.map Path.fileName) names)
  let projects ← ExceptT.lift (generateModules files config asked dirs)
  if projects.isEmpty then Attempt.fail .noModules
  return projects

/-- The documents among the files of several projects. -/
def documentsOf (formats : List OutputFormat) (projects : List Project) : List RenderedFile :=
  projects.flatMap fun p => (formats.filter (· == .asciidoc)).flatMap p.render

/-- The files of all projects in all formats, and at their end, if the configuration says so,
all documents in one. -/
def renderAll (projects : List Project) (config : Config) : List RenderedFile :=
  let files := projects.flatMap fun p => config.formats.flatMap p.render
  let documents := documentsOf config.formats projects
  if config.mergesDocuments && !documents.isEmpty then
    files ++ [mergeDocuments config.mergedStem documents]
  else files

/-- The files with their paths as seen from where a directory is seen from. -/
def placedIn (dir : String) (rendered : List RenderedFile) : List RenderedFile :=
  rendered.map fun f => { f with path := Path.join dir f.path }

/-- Writes files, one after the other. -/
def writeAll (files : Files) (rendered : List RenderedFile) : Except Failure Files :=
  rendered.foldlM (fun files f => files.write f.path f.content) files

/-- What is printed when files go nowhere else. -/
def printed (rendered : List RenderedFile) : String :=
  String.join (rendered.map fun f => f.content ++ "\n")

/-- What a run prints, what it writes, and the files as it leaves them. -/
structure Outcome where
  output : String
  written : List RenderedFile
  files : Files
  deriving Inhabited

/-- What becomes of the rendered files. -/
def deliver (files : Files) (config : Config) (rendered : List RenderedFile) :
    Except Failure Outcome :=
  match config.buildPath with
  | none => .ok ⟨printed rendered, [], files⟩
  | some dir => do
    let written := placedIn dir rendered
    return ⟨"", written, ← writeAll files written⟩

/-- A whole run. -/
def run (files : Files) (a : Arguments) : Attempt Outcome := do
  Attempt.ofCause (a.check files)
  let config ← Attempt.ofExcept (a.loadConfig files)
  let projects ← generateAll files a.projectPath config a.framework
  if projects.all fun p => p.endpoints.isEmpty then Attempt.warn .nothingToDocument
  Attempt.ofExcept (deliver files config (renderAll projects config))

end Run
end RouteBook
