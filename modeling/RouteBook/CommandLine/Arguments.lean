import RouteBook.Config.Basic
/-! # The command line

The arguments of a run.  Options are read from left to right.  A value that follows its option
as an argument of its own is looked at only when the next option has been recognised, so of two
faults next to each other, an unknown option is reported first.
-/
namespace RouteBook

/-- Why a command line does not start a run. -/
inductive UsageFault where
  | unknownArgument
  | invalidValue
  | missingArgument
  /-- An option that is allowed once is given again. -/
  | repeated
  /-- An option that takes no value is given one. -/
  | unexpectedValue
  | helpWanted
  | versionWanted
  deriving DecidableEq, Repr, Inhabited

/-- What a run is told on the command line. -/
structure Arguments where
  projectPath : String
  configPath : Option String
  formats : List OutputFormat
  outputPath : Option String
  framework : Option Framework
  only : List String
  exclude : List String
  urlPrefix : Option String
  id : Option String
  name : Option String
  version : Option String
  isVerbose : Bool
  deriving DecidableEq, Repr, Inhabited

/-- What takes a value. -/
inductive Setting where
  | project
  | config
  | format
  | output
  | framework
  | only
  | exclude
  | urlPrefix
  | id
  | name
  | version
  deriving DecidableEq, Repr, Inhabited

namespace Setting

/-- Whether several values may be given. -/
def isMany : Setting → Bool
  | format | only | exclude => true
  | _ => false

/-- A path, which must not be empty. -/
def path? (value : String) : Except UsageFault String :=
  if value.isEmpty then .error .invalidValue else .ok value

/-- One of several words. -/
def word? {α : Type} (meaning : Option α) : Except UsageFault α :=
  match meaning with
  | some a => .ok a
  | none => .error .invalidValue

/-- The arguments with one more value. -/
def apply (value : String) (a : Arguments) : Setting → Except UsageFault Arguments
  | project => return { a with projectPath := ← path? value }
  | config => return { a with configPath := some (← path? value) }
  | format => return { a with formats := a.formats ++ [← word? (OutputFormat.ofName? value)] }
  | output => return { a with outputPath := some (← path? value) }
  | framework =>
    let known := Framework.all.find? fun f => f.names.contains value
    return { a with framework := some (← word? known) }
  | only => return { a with only := a.only ++ [value] }
  | exclude => return { a with exclude := a.exclude ++ [value] }
  | urlPrefix => return { a with urlPrefix := some value }
  | id => return { a with id := some value }
  | name => return { a with name := some value }
  | version => return { a with version := some value }

end Setting

/-- What an option does. -/
inductive Flag where
  | verbose
  | help
  | version
  | setting (s : Setting)
  deriving DecidableEq, Repr, Inhabited

namespace Flag

/-- The options of a single letter. -/
def short? (letter : Char) : Option Flag :=
  [('c', setting .config), ('f', setting .format), ('o', setting .output),
    ('w', setting .framework), ('v', verbose), ('h', help), ('V', version)].lookup letter

/-- The options of a whole word. -/
def long? (word : String) : Option Flag :=
  [("config", setting .config), ("format", setting .format), ("output", setting .output),
    ("framework", setting .framework), ("only", setting .only), ("exclude", setting .exclude),
    ("url-prefix", setting .urlPrefix), ("id", setting .id), ("name", setting .name),
    ("version-label", setting .version), ("verbose", verbose), ("help", help),
    ("version", version)].lookup word

end Flag

/-- How far a command line has been read. -/
structure ArgumentReader where
  arguments : Arguments
  /-- What has been given so far. -/
  given : List Setting
  /-- What has not been looked at yet: a setting, and its value unless that is still to come. -/
  pending : Option (Setting × Option String)
  /-- Whether the project has been named. -/
  hasProject : Bool
  /-- Whether nothing is an option any more. -/
  isPlain : Bool
  deriving Inhabited

namespace ArgumentReader

def new : ArgumentReader where
  arguments := ⟨"", none, [], none, none, [], [], none, none, none, none, false⟩
  given := []
  pending := none
  hasProject := false
  isPlain := false

/-- Takes a value. -/
def take (s : ArgumentReader) (setting : Setting) (value : String) :
    Except UsageFault ArgumentReader := do
  if !setting.isMany && s.given.contains setting then throw .repeated
  return { s with
    arguments := ← setting.apply value s.arguments
    given := setting :: s.given }

/-- Takes the value that has not been looked at yet. -/
def settle (s : ArgumentReader) : Except UsageFault ArgumentReader :=
  match s.pending with
  | none => .ok s
  | some (setting, some value) => { s with pending := none }.take setting value
  | some (_, none) => .error .invalidValue

/-- Acts on an option without a value.  A setting waits for its value. -/
def flag (s : ArgumentReader) (f : Flag) : Except UsageFault ArgumentReader := do
  let s ← s.settle
  match f with
  | .help => throw .helpWanted
  | .version => throw .versionWanted
  | .setting setting => return { s with pending := some (setting, none) }
  | .verbose =>
    if s.arguments.isVerbose then throw .repeated
    return { s with arguments := { s.arguments with isVerbose := true } }

/-- An option of a whole word, perhaps with a value behind an equals sign. -/
def long (s : ArgumentReader) (word : List Char) (value : Option String) :
    Except UsageFault ArgumentReader :=
  match Flag.long? (String.ofList word), value with
  | none, _ => .error .unknownArgument
  | some (.setting setting), some value => do (← s.settle).take setting value
  | some _, some _ => .error .unexpectedValue
  | some f, none => s.flag f

/-- Options of a single letter, the last of which may have its value right behind it. -/
def short (s : ArgumentReader) : List Char → Except UsageFault ArgumentReader
  | [] => .ok s
  | letter :: letters =>
    match Flag.short? letter, letters with
    | none, _ => .error .unknownArgument
    | some (.setting setting), '=' :: value => do
      (← s.settle).take setting (String.ofList value)
    | some (.setting setting), c :: value => do
      (← s.settle).take setting (String.ofList (c :: value))
    | some f, letters => do short (← s.flag f) letters

/-- An argument that is no option: the project, which is named once. -/
def plain (s : ArgumentReader) (argument : String) : Except UsageFault ArgumentReader := do
  if s.hasProject then throw .unknownArgument
  let s ← s.settle
  return { s with pending := some (.project, some argument), hasProject := true }

/-- The next argument. -/
def step (s : ArgumentReader) (argument : String) : Except UsageFault ArgumentReader :=
  if s.isPlain then s.plain argument
  else
    match argument.toList with
    | ['-', '-'] => .ok { s with isPlain := true }
    | '-' :: '-' :: option =>
      match Text.cutAt? (· == '=') option with
      | some (word, value) => s.long word (some (String.ofList value))
      | none => s.long option none
    | '-' :: letter :: letters => s.short (letter :: letters)
    | _ =>
      match s.pending with
      | some (setting, none) => .ok { s with pending := some (setting, some argument) }
      | _ => s.plain argument

end ArgumentReader

/-- Reads a command line without the name of the program. -/
def Arguments.parse (arguments : List String) : Except UsageFault Arguments := do
  let s ← arguments.foldlM ArgumentReader.step ArgumentReader.new
  let s ← s.settle
  if s.hasProject then return s.arguments
  throw .missingArgument

namespace Arguments

/-- The configuration in which everything that is given on the command line takes its place.
Given patterns also replace those in a file. -/
def override (a : Arguments) (c : Config) : Config :=
  { c with
    id := a.id.getD c.id
    name := a.name <|> c.name
    version := a.version <|> c.version
    urlPrefix := a.urlPrefix.getD c.urlPrefix
    onlyPatterns := if a.only.isEmpty then c.onlyPatterns else a.only
    onlyPatternsFile := if a.only.isEmpty then c.onlyPatternsFile else none
    excludePatterns := if a.exclude.isEmpty then c.excludePatterns else a.exclude
    excludePatternsFile := if a.exclude.isEmpty then c.excludePatternsFile else none
    formats := if a.formats.isEmpty then c.formats else a.formats
    buildPath := a.outputPath <|> c.buildPath }

end Arguments
end RouteBook
