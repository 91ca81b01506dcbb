import RouteBook.Pattern.Glob
/-! # Sets of globs

A set of globs is asked whether one of them matches a path, and it does not try them one by one.  A
glob that is nothing but a text is looked up as a whole, and one that is a text with `/**` behind it
by its front.  Of the others, one that ends in an extension is only tried on the paths that have
this extension, and the rest on all paths.  That is how globs are looked for that begin with a
slash; there are further ways for those that begin with `**`.

The extension of a path is that of its last name, and not every last name is the name of a file:
the one that goes up is not.  Whether others that end in a point are is not the same in all
versions of the matcher, and is left open here.
-/
namespace RouteBook
namespace Glob

/-! ### How a glob is looked for -/

/-- The text that tokens are, if all of them are literals. -/
def text? : List Token → Option (List Char)
  | [] => some []
  | .literal c :: tokens => (text? tokens).map (c :: ·)
  | _ :: _ => none

/-- The text that every path begins with that is matched, if the tokens are a text and `/**`. -/
def front? (tokens : List Token) : Option (List Char) :=
  if tokens.getLast? = some .deepEnd then (text? tokens.dropLast).map (· ++ ['/']) else none

/-- The extension at the end of tokens, which are given from last to first; `read` is what has been
read of it. -/
def extensionFrom (read : List Char) : List Token → Option (List Char)
  | .literal c :: tokens =>
    if c = '/' then none
    else if c = '.' then some (c :: read)
    else extensionFrom (c :: read) tokens
  | _ => none

/-- The extension that tokens end in: literals from a point on, with no slash among them. -/
def extension? (tokens : List Token) : Option (List Char) := extensionFrom [] tokens.reverse

/-- How a set looks for a glob. -/
inductive Search where
  /-- The path is this text. -/
  | whole (text : List Char)
  /-- The path begins with this text. -/
  | front (text : List Char)
  /-- The path has this extension, and the tokens match it. -/
  | extension (ending : List Char) (tokens : List Token)
  /-- The tokens match the path, whatever it ends in. -/
  | plain (tokens : List Token)
  deriving DecidableEq, Repr, Inhabited

/-- The first way to look for a glob that is open. -/
def searchOf (tokens : List Token) : Search :=
  match text? tokens, front? tokens, extension? tokens with
  | some text, _, _ => .whole text
  | none, some text, _ => .front text
  | none, none, some ending => .extension ending tokens
  | none, none, none => .plain tokens

/-! ### Looking for it in a path -/

/-- The byte of a point. -/
def point : UInt8 := 0x2E

/-- What stands behind the last occurrence of a byte. -/
def behindLast (b : UInt8) (bytes : List UInt8) : List UInt8 :=
  (bytes.reverse.takeWhile (· != b)).reverse

/-- The last name of a path. -/
def lastName (path : List UInt8) : List UInt8 := behindLast slash path

/-- The extension of a path: its last name from the last point on, if it is the name of a file. -/
def extensionOf? (isName : List UInt8 → Bool) (path : List UInt8) : Option (List UInt8) :=
  let name := lastName path
  if isName name && name.contains point then some (point :: behindLast point name) else none

/-- Whether a path is found. -/
def Search.finds (isName : List UInt8 → Bool) (path : List Char) : Search → Bool
  | .whole text => Text.bytes text == Text.bytes path
  | .front text => (Text.bytes text).isPrefixOf (Text.bytes path)
  | .extension ending tokens =>
    extensionOf? isName (Text.bytes path) == some (Text.bytes ending) && isMatch tokens path
  | .plain tokens => isMatch tokens path

/-- Whether a set of globs says that one of them matches. -/
def finds (isName : List UInt8 → Bool) (globs : List (List Token)) (path : List Char) : Bool :=
  globs.any fun tokens => (searchOf tokens).finds isName path

/-- Whether the last name of a path is that of a file. -/
def isFileName (name : List UInt8) : Bool := name != [point, point]

end Glob
end RouteBook
