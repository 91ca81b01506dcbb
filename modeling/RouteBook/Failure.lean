import RouteBook.Pattern.PathPattern
/-! # Failures

Why a run, or a part of one, comes to no result.  A failure has a cause and, from the outside
in, the activities that it interrupted.
-/
namespace RouteBook

/-- What the file system answers to a request that it cannot meet. -/
inductive FileFault where
  | notFound
  | exists
  | notDirectory
  | isDirectory
  /-- The content of a file is not valid UTF-8. -/
  | notText
  deriving DecidableEq, Repr, Inhabited

def FileFault.message : FileFault → String
  | .notFound => "No such file or directory (os error 2)"
  | .exists => "File exists (os error 17)"
  | .notDirectory => "Not a directory (os error 20)"
  | .isDirectory => "Is a directory (os error 21)"
  | .notText => "stream did not contain valid UTF-8"

/-- What is wrong with a configuration. -/
inductive ConfigFault where
  | malformed
  | emptyId
  | noFormat
  | prefixWithoutSlash (given : String)
  | zeroDepth
  | moduleName (given : String)
  | mergeWithoutAsciidoc
  | unreadablePatterns (file : String) (fault : FileFault)
  | malformedPatterns (file : String)
  deriving DecidableEq, Repr, Inhabited

def ConfigFault.message : ConfigFault → String
  | .malformed => "malformed configuration"
  | .emptyId => "id must not be empty"
  | .noFormat => "at least one output format is required"
  | .prefixWithoutSlash given => "urlPrefix must start with '/': " ++ given
  | .zeroDepth => "maxDepth must be at least 1"
  | .moduleName given => "module dirName must be a plain directory name: '" ++ given ++ "'"
  | .mergeWithoutAsciidoc => "mergeToOneFile requires the asciidoc format"
  | .unreadablePatterns file fault => "cannot read " ++ file ++ ": " ++ fault.message
  | .malformedPatterns file => file ++ " must hold a list of patterns"

/-- The cause of a failure. -/
inductive Cause where
  /-- A configuration file that cannot be read. -/
  | unreadable (fault : FileFault)
  | config (fault : ConfigFault)
  | pattern (invalid : InvalidPattern)
  | unknownFramework (name : String)
  | frameworkNotDetected
  /-- A request to the file system outside of configuration. -/
  | files (fault : FileFault)
  | missingProject (path : String)
  | projectNotDirectory (path : String)
  | missingConfig (path : String)
  | noSources
  | noParsedSources
  | noModules
  deriving DecidableEq, Repr, Inhabited

def Cause.message : Cause → String
  | .unreadable fault => "IO error: " ++ fault.message
  | .config fault => "Invalid configuration: " ++ fault.message
  | .pattern invalid => invalid.message
  | .unknownFramework name => "Unknown framework '" ++ name ++ "' (supported: spring)"
  | .frameworkNotDetected => "No supported web framework detected"
  | .files fault => fault.message
  | .missingProject path => "Project path does not exist: " ++ path
  | .projectNotDirectory path => "Project path is not a directory: " ++ path
  | .missingConfig path => "Config file does not exist: " ++ path
  | .noSources => "No Rust files found in the project directory"
  | .noParsedSources => "No files could be parsed successfully"
  | .noModules => "No module directory produced documentation"

/-- What the cause itself is caused by, if that is reported separately. -/
def Cause.source? : Cause → Option String
  | .unreadable fault => some fault.message
  | _ => none

/-- A failure: its cause, and the interrupted activities from the outside in. -/
structure Failure where
  activities : List String
  cause : Cause
  deriving DecidableEq, Repr, Inhabited

namespace Failure

def ofCause (cause : Cause) : Failure := ⟨[], cause⟩

/-- The failure seen from one activity further out. -/
def during (activity : String) (f : Failure) : Failure :=
  { f with activities := activity :: f.activities }

/-- The whole chain from the outermost activity to the cause. -/
def message (f : Failure) : String :=
  Text.joined ": " (f.activities ++ f.cause.message :: f.cause.source?.toList)

end Failure
end RouteBook
