/-! # Globs over slash separated paths

A glob is read into tokens, and a token says how it may match at the front of a path: `after`
lists what can be left of the path.  A glob matches a path when some way of matching all its
tokens leaves nothing.  Matching is done on the UTF-8 bytes of the path, so `?` and a class
cover one byte.

Neither `?` nor `*` matches a slash; a class and `**` may.
-/
namespace RouteBook

/-- The UTF-8 bytes of a text. -/
def Text.bytes (cs : List Char) : List UInt8 := cs.flatMap String.utf8EncodeChar

namespace Glob

/-- A part of a glob. -/
inductive Token where
  /-- A character that stands for itself. -/
  | literal (c : Char)
  /-- `?`: one byte, but no slash. -/
  | anyOne
  /-- `*`: any run of bytes without a slash. -/
  | anyRun
  /-- `**` at the start: nothing, or everything up to and with a slash. -/
  | deepStart
  /-- `/**/`: one slash, or everything between two slashes. -/
  | deepBetween
  /-- `/**` at the end: a slash and anything behind it. -/
  | deepEnd
  /-- `[…]`: one byte of those listed, or one that is not. -/
  | oneOf (negated : Bool) (ranges : List (Char × Char))
  deriving DecidableEq, Repr, Inhabited

/-- Why a text is no glob. -/
inductive Fault where
  | unclosedClass
  | invalidRange (first last : Char)
  | danglingEscape
  deriving DecidableEq, Repr, Inhabited

/-- The wording of a fault. -/
def Fault.message : Fault → String
  | .unclosedClass => "unclosed character class; missing ']'"
  | .invalidRange first last =>
    "invalid range; '" ++ String.ofList [first] ++ "' > '" ++ String.ofList [last] ++ "'"
  | .danglingEscape => "dangling '\\'"

/-! ### Reading -/

/-- A character class that is being read: its ranges from last to first, whether something has
been read, and whether a minus sign waits for the end of a range. -/
structure OpenClass where
  negated : Bool
  ranges : List (Char × Char)
  first : Bool
  inRange : Bool

namespace OpenClass

/-- Ends the last range at `c`. -/
def extend (cls : OpenClass) (c : Char) : Except Fault OpenClass :=
  match cls.ranges with
  | [] => .ok { cls with ranges := [(c, c)], first := false, inRange := false }
  | (low, _) :: ranges =>
    if c < low then .error (.invalidRange low c)
    else .ok { cls with ranges := (low, c) :: ranges, first := false, inRange := false }

/-- Adds a character on its own. -/
def add (cls : OpenClass) (c : Char) : OpenClass :=
  { cls with ranges := (c, c) :: cls.ranges, first := false, inRange := false }

/-- Reads a character of the class other than the closing bracket. -/
def read (cls : OpenClass) (c : Char) : Except Fault OpenClass :=
  if c = '-' then
    if cls.first then .ok (cls.add c)
    else if cls.inRange then cls.extend c
    else .ok { cls with inRange := true }
  else if cls.inRange then cls.extend c
  else .ok (cls.add c)

/-- The token of a class whose closing bracket has been read.  A minus sign just before the
bracket stands for itself. -/
def close (cls : OpenClass) : Token :=
  let ranges := if cls.inRange then ('-', '-') :: cls.ranges else cls.ranges
  .oneOf cls.negated ranges.reverse

end OpenClass

/-- Reads the inside of a class, and gives its token and the text behind the bracket. -/
def readClass (cls : OpenClass) : List Char → Except Fault (Token × List Char)
  | [] => .error .unclosedClass
  | c :: cs =>
    if c = ']' ∧ ¬cls.first then .ok (cls.close, cs)
    else
      match cls.read c with
      | .error fault => .error fault
      | .ok cls => readClass cls cs

/-- Reads a class from behind its opening bracket. -/
def classAt : List Char → Except Fault (Token × List Char)
  | '!' :: cs => readClass ⟨true, [], true, false⟩ cs
  | '^' :: cs => readClass ⟨true, [], true, false⟩ cs
  | cs => readClass ⟨false, [], true, false⟩ cs

/-- What two stars add to the tokens read so far, given the character before them and whether
they end a segment: two separate stars unless they are a whole segment. -/
def addDeep (tokens : List Token) (before : Option Char) (ends last : Bool) : List Token :=
  match tokens with
  | [] => if ends then [.deepStart] else [.anyRun, .anyRun]
  | token :: rest =>
    if before = some '/' ∧ ends = true then
      match token with
      | .deepStart => .deepStart :: rest
      | .deepEnd => .deepEnd :: rest
      | _ => (if last then .deepEnd else .deepBetween) :: rest
    else .anyRun :: .anyRun :: tokens

/-- Reads the tokens of a glob; `tokens` are those read already, from last to first, and
`before` is the last character read. -/
def readTokens (fuel : Nat) (tokens : List Token) (before : Option Char) (cs : List Char) :
    Except Fault (List Token) :=
  match fuel, cs with
  | 0, _ => .ok tokens.reverse
  | _, [] => .ok tokens.reverse
  | fuel + 1, '*' :: '*' :: cs =>
    match cs with
    | [] => readTokens fuel (addDeep tokens before true true) (some '*') []
    | '/' :: rest =>
      let isWhole := tokens.isEmpty || before == some '/'
      if isWhole then readTokens fuel (addDeep tokens before true false) (some '/') rest
      else readTokens fuel (addDeep tokens before false false) (some '*') ('/' :: rest)
    | cs => readTokens fuel (addDeep tokens before false false) (some '*') cs
  | fuel + 1, '*' :: cs => readTokens fuel (.anyRun :: tokens) (some '*') cs
  | fuel + 1, '?' :: cs => readTokens fuel (.anyOne :: tokens) (some '?') cs
  | fuel + 1, '[' :: cs =>
    match classAt cs with
    | .error fault => .error fault
    | .ok (token, rest) => readTokens fuel (token :: tokens) (some ']') rest
  | _ + 1, ['\\'] => .error .danglingEscape
  | fuel + 1, '\\' :: c :: cs => readTokens fuel (.literal c :: tokens) (some c) cs
  | fuel + 1, c :: cs => readTokens fuel (.literal c :: tokens) (some c) cs

/-- The tokens of a glob. -/
def parse (glob : List Char) : Except Fault (List Token) :=
  readTokens glob.length [] none glob

/-! ### Matching -/

/-- The byte of a slash. -/
def slash : UInt8 := 0x2F

/-- What is left of a path after a run of bytes without a slash, for every such run. -/
def afterRun : List UInt8 → List (List UInt8)
  | [] => [[]]
  | b :: bs => (b :: bs) :: if b = slash then [] else afterRun bs

/-- What is left of a path behind any slash in it. -/
def afterSlash : List UInt8 → List (List UInt8)
  | [] => []
  | b :: bs => if b = slash then bs :: afterSlash bs else afterSlash bs

/-- Every end of a path, the whole path first. -/
def ends : List UInt8 → List (List UInt8)
  | [] => [[]]
  | b :: bs => (b :: bs) :: ends bs

/-- The ranges of bytes that a range of characters covers.  The bytes of both characters are
listed one after the other, with the range sign between the last byte of the one and the first
byte of the other. -/
def byteRanges (range : Char × Char) : List (UInt8 × UInt8) :=
  let single (b : UInt8) : UInt8 × UInt8 := (b, b)
  let low := String.utf8EncodeChar range.1
  let high := String.utf8EncodeChar range.2
  if range.1 = range.2 then low.map single
  else
    low.dropLast.map single ++ [(low.getLastD 0, high.headD 0)] ++ high.tail.map single

/-- Whether a byte lies in one of the ranges. -/
def inRanges (ranges : List (Char × Char)) (b : UInt8) : Bool :=
  (ranges.flatMap byteRanges).any fun (low, high) => low ≤ b && b ≤ high

/-- What can be left of a path once a token has matched at its front. -/
def Token.after (path : List UInt8) : Token → List (List UInt8)
  | .literal c =>
    let word := String.utf8EncodeChar c
    if word.isPrefixOf path then [path.drop word.length] else []
  | .anyOne =>
    match path with
    | [] => []
    | b :: bs => if b = slash then [] else [bs]
  | .anyRun => afterRun path
  | .deepStart => path :: afterSlash path
  | .deepBetween =>
    match path with
    | [] => []
    | b :: bs => if b = slash then bs :: afterSlash bs else []
  | .deepEnd =>
    match path with
    | [] => []
    | b :: bs => if b = slash then ends bs else []
  | .oneOf negated ranges =>
    match path with
    | [] => []
    | b :: bs => if inRanges ranges b != negated then [bs] else []

/-- What can be left of one of several paths once all tokens have matched. -/
def rests (tokens : List Token) (paths : List (List UInt8)) : List (List UInt8) :=
  tokens.foldl (fun paths token => (paths.flatMap fun p => token.after p).eraseDups) paths

/-- Whether the tokens match a path from end to end. -/
def isMatch (tokens : List Token) (path : List Char) : Bool :=
  (rests tokens [Text.bytes path]).contains []

end Glob
end RouteBook
