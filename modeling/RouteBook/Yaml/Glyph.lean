import RouteBook.Yaml.Write
/-! # The characters of a text and their places

Depth is told by columns, so every character of a text that is read comes with its place.  Lines
may end in several ways; all but two rare ones are read as a line feed.
-/
namespace RouteBook
namespace Yaml

/-- A character and the line, the column and the count of characters before it. -/
structure Glyph where
  char : Char
  line : Nat
  column : Nat
  index : Nat
  deriving DecidableEq, Repr, Inhabited

/-- Characters that a text may hold at all. -/
def isReadable (c : Char) : Bool :=
  let n := c.toNat
  n == 0x09 || n == 0x0A || n == 0x0D || (0x20 ≤ n && n ≤ 0x7E) || n == 0x85
    || (0xA0 ≤ n && n ≤ 0xD7FF) || (0xE000 ≤ n && n ≤ 0xFFFD) || 0x10000 ≤ n

/-- Reads a carriage return, a line feed behind one, and a next-line character as line feeds. -/
def unifyBreaks : List Char → List Char
  | '\r' :: '\n' :: cs => '\n' :: unifyBreaks cs
  | c :: cs => (if c = '\r' || c.toNat == 0x85 then '\n' else c) :: unifyBreaks cs
  | [] => []

/-- The characters with their places, from a given place on. -/
def placed (line column index : Nat) : List Char → List Glyph
  | [] => []
  | c :: cs =>
    ⟨c, line, column, index⟩ ::
      (if isBreak c then placed (line + 1) 0 (index + 1) cs
        else placed line (column + 1) (index + 1) cs)

/-- The glyphs of a text. -/
def glyphs? (text : String) : Option (List Glyph) :=
  let cs := text.toList
  if cs.all isReadable then some (placed 0 0 0 (unifyBreaks cs)) else none

/-- Reading takes glyphs from the front and hands on the rest, or fails. -/
abbrev Reading (α : Type) := List Glyph → Option (α × List Glyph)

/-- The character at the front. -/
def front? (gs : List Glyph) : Option Char := gs.head?.map (·.char)

/-- Whether there is a blank, a line end, or nothing at the front. -/
def atGap (gs : List Glyph) : Bool := isGap (front? gs)

/-- Whether there is a line end or nothing at the front. -/
def atLineEnd (gs : List Glyph) : Bool := (front? gs).all isBreak

def isBlank (c : Char) : Bool := c = ' ' || c = '\t'

/-- Whether the given characters stand at the front. -/
def startsWith (word : List Char) (gs : List Glyph) : Bool :=
  (gs.take word.length).map (·.char) == word

/-- Whether a line begins with a mark that opens or ends a document. -/
def atDocumentMark (gs : List Glyph) : Bool :=
  (gs.head?.any fun g => g.column == 0)
    && (startsWith ['-', '-', '-'] gs || startsWith ['.', '.', '.'] gs) && atGap (gs.drop 3)

def skipBlanks (gs : List Glyph) : List Glyph := gs.dropWhile fun g => isBlank g.char

/-- Skips everything up to the end of the line. -/
def skipLine (gs : List Glyph) : List Glyph := gs.dropWhile fun g => !isBreak g.char

/-- Skips blanks and a comment, with which the line has to end, and the line end. -/
def finishLine? (gs : List Glyph) : Option (List Glyph) :=
  let gs := skipBlanks gs
  let gs := if front? gs == some '#' then skipLine gs else gs
  if atLineEnd gs then some (gs.drop 1) else none

/-! ### What stands between two words -/

/-- The white space inside of a text: blanks, or line ends with what is around them. -/
structure Gap where
  /-- Blanks, as long as the line has not ended. -/
  blanks : List Char
  broken : Bool
  /-- The first line end. -/
  first : List Char
  /-- The line ends behind the first one. -/
  more : List Char
  deriving Repr, Inhabited

namespace Gap

def none : Gap := ⟨[], false, [], []⟩

/-- The gap of an escaped line end. -/
def escaped : Gap := ⟨[], true, [], []⟩

def isNone (gap : Gap) : Bool := gap.blanks.isEmpty && !gap.broken

def addBlank (gap : Gap) (c : Char) : Gap :=
  if gap.broken then gap else { gap with blanks := gap.blanks ++ [c] }

def addBreak (gap : Gap) (c : Char) : Gap :=
  if gap.broken then { gap with more := gap.more ++ [c] } else ⟨[], true, [c], []⟩

/-- Line ends are folded: a line feed counts as a blank, and as nothing if more line ends
follow it. -/
def fold (first more : List Char) : List Char :=
  if first = ['\n'] then if more.isEmpty then [' '] else more else first ++ more

/-- What a gap contributes to the text. -/
def chars (gap : Gap) : List Char := if gap.broken then fold gap.first gap.more else gap.blanks

end Gap

end Yaml
end RouteBook
