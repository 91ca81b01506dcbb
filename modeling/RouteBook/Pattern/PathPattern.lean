import RouteBook.Pattern.Glob
import RouteBook.Http.Uri
/-! # Path patterns

A path pattern is a slash followed by segments.  A segment `**` covers any number of segments
of a route, also none; in any other segment `*` and a group `{name}` cover a run of characters.
A pattern compiles to one glob, and to a second one without its last segment when that is
`**`, because `/a/**` covers `/a` itself.
-/
namespace RouteBook

/-- What is wrong with a path pattern. -/
inductive PatternFault where
  | empty
  | noLeadingSlash
  | deepInsideSegment
  | nestedBrace
  | unclosedBrace
  | strayBrace
  | glob (glob : String) (fault : Glob.Fault)
  deriving DecidableEq, Repr, Inhabited

/-- The wording of a fault. -/
def PatternFault.message : PatternFault → String
  | .empty => "pattern is empty"
  | .noLeadingSlash => "pattern must start with '/'"
  | .deepInsideSegment => "'**' must be a whole segment"
  | .nestedBrace => "nested '\x7b'"
  | .unclosedBrace => "unbalanced '\x7b'"
  | .strayBrace => "unbalanced '\x7d'"
  | .glob text fault => "error parsing glob '" ++ text ++ "': " ++ fault.message

/-- A malformed pattern, as it was written, and what is wrong with it. -/
structure InvalidPattern where
  pattern : String
  fault : PatternFault
  deriving DecidableEq, Repr, Inhabited

/-- The wording of the error. -/
def InvalidPattern.message (e : InvalidPattern) : String :=
  "Invalid path pattern '" ++ e.pattern ++ "': " ++ e.fault.message

/-- A pattern that has been checked, with the globs it stands for. -/
structure PathPattern where
  source : String
  globs : List (List Glob.Token)
  deriving DecidableEq, Repr, Inhabited

namespace PathPattern

/-- The segment that covers any number of segments. -/
def deep : List Char := ['*', '*']

/-- Whether two stars stand side by side in a segment. -/
def hasDeep : List Char → Bool
  | '*' :: '*' :: _ => true
  | _ :: cs => hasDeep cs
  | [] => false

/-- Replaces every group by a star.  `inGroup` says whether one is open. -/
def replaceGroups (inGroup : Bool) : List Char → Except PatternFault (List Char)
  | [] => if inGroup then .error .unclosedBrace else .ok []
  | c :: cs =>
    if inGroup then
      if c = '\x7d' then (replaceGroups false cs).map ('*' :: ·)
      else if c = '\x7b' then .error .nestedBrace
      else replaceGroups true cs
    else if c = '\x7b' then replaceGroups true cs
    else if c = '\x7d' then .error .strayBrace
    else (replaceGroups false cs).map (c :: ·)

/-- The glob of one segment. -/
def segmentGlob (segment : List Char) : Except PatternFault (List Char) :=
  if segment ≠ deep ∧ hasDeep segment = true then .error .deepInsideSegment
  else replaceGroups false segment

/-- A slash, and the segments with slashes between them. -/
def path (segments : List (List Char)) : List Char := '/' :: Text.joinWith ['/'] segments

/-- Compiles a glob. -/
def compile (glob : List Char) : Except PatternFault (List Glob.Token) :=
  (Glob.parse glob).mapError (PatternFault.glob (String.ofList glob))

/-- The non-empty pieces between the slashes of a text. -/
def segments (cs : List Char) : List (List Char) := (Text.splitAt '/' cs).filter (· ≠ [])

/-- The globs of a trimmed pattern. -/
def globsOf (cs : List Char) : Except PatternFault (List (List Glob.Token)) := do
  if cs = [] then throw .empty
  if cs.head? ≠ some '/' then throw .noLeadingSlash
  let globs ← (segments cs).mapM segmentGlob
  let paths :=
    if globs.getLast? = some deep then [path globs, path globs.dropLast] else [path globs]
  paths.mapM compile

/-- Checks and compiles a pattern. -/
def parse (pattern : String) : Except InvalidPattern PathPattern :=
  let cs := Text.trim pattern.toList
  match globsOf cs with
  | .error fault => .error ⟨pattern, fault⟩
  | .ok globs => .ok ⟨String.ofList cs, globs⟩

/-- Whether a route, in normal form, is covered by the pattern. -/
def covers (p : PathPattern) (uri : String) : Bool :=
  let text := (Uri.parse uri).text.toList
  p.globs.any fun glob => Glob.isMatch glob text

end PathPattern
end RouteBook
