import RouteBook.Yaml.Glyph
import RouteBook.Yaml.Scalar
/-! # Block scalars in a text

A block scalar takes all lines that are deep enough.  In a folded one, single line ends between
lines that do not begin with a blank count as blanks.
-/
namespace RouteBook
namespace Yaml

/-- What is kept of the line ends at the end of a block scalar. -/
inductive Chomping where
  | strip
  | clip
  | keep
  deriving DecidableEq, Repr

def chomping? (c : Char) : Option Chomping := [('-', Chomping.strip), ('+', .keep)].lookup c

/-- A sign that tells how line ends at the end are treated. -/
def chompingSign (gs : List Glyph) : Option Chomping × List Glyph :=
  match (front? gs).bind chomping? with
  | some sign => (some sign, gs.drop 1)
  | none => (none, gs)

/-- A digit that tells how much deeper than their surroundings the lines are. -/
def depthDigit? (gs : List Glyph) : Option (Option Nat × List Glyph) :=
  match (front? gs).bind (digit? 10) with
  | some 0 => none
  | some n => some (some n, gs.drop 1)
  | none => some (none, gs)

/-- The head of a block scalar: a sign and a digit in any order, and the end of the line. -/
def blockHead? : Reading (Chomping × Option Nat) := fun gs => do
  let (before, gs) := chompingSign gs
  let (depth, gs) ← depthDigit? gs
  let (sign, gs) := match before with
    | some sign => (some sign, gs)
    | none => if depth.isSome then chompingSign gs else (none, gs)
  return ((sign.getD .clip, depth), ← finishLine? gs)

/-- Skips empty lines and the blanks before a line of a scalar, if its depth is known no more
blanks than that.  Gives the line ends, and the greatest column of all lines skipped. -/
def blockGap? (depth : Option Nat) (widest : Nat) (breaks : List Char) :
    Reading (Nat × List Char)
  | [] => some ((widest, breaks), [])
  | g :: gs =>
    let isBefore := depth.all fun d => g.column < d
    if isBefore && g.char = ' ' then blockGap? depth widest breaks gs
    else
      let widest := max widest g.column
      if isBefore && g.char = '\t' then none
      else if isBreak g.char then blockGap? depth widest (breaks ++ [g.char]) gs
      else some ((widest, breaks), g :: gs)

/-- What has been read of a block scalar. -/
structure BlockLines where
  /-- The text up to the end of the last line, in reverse. -/
  read : List Char
  /-- Whether the last line begins with a blank. -/
  isBlank : Bool
  /-- The end of the last line. -/
  lineEnd : List Char
  /-- The line ends of the empty lines behind it. -/
  more : List Char
  deriving Inhabited

/-- What comes between the lines so far and the next one. -/
def BlockLines.join (isFolded nextIsBlank : Bool) (lines : BlockLines) : List Char :=
  if isFolded && lines.lineEnd = ['\n'] && !lines.isBlank && !nextIsBlank then
    Gap.fold lines.lineEnd lines.more
  else lines.lineEnd ++ lines.more

/-- The lines of a block scalar. -/
def blockLines? (isFolded : Bool) (depth : Nat) :
    (fuel : Nat) → (lines : BlockLines) → Reading BlockLines
  | fuel + 1, lines, g :: gs =>
    if g.column = depth then do
      let begins := isBlank g.char
      let line := ((g :: gs).takeWhile fun g => !isBreak g.char).map (·.char)
      let rest := skipLine (g :: gs)
      let ((_, more), next) ← blockGap? (some depth) 0 [] (rest.drop 1)
      let read := line.reverse ++ (lines.join isFolded begins).reverse ++ lines.read
      blockLines? isFolded depth fuel ⟨read, begins, (front? rest).toList, more⟩ next
    else some (lines, g :: gs)
  | _, lines, gs => some (lines, gs)

/-- A block scalar behind the mark that opens it.  Its surroundings are so deep; at the top of a
document they have no depth. -/
def block? (isFolded : Bool) (around : Option Nat) : Reading String := fun gs => do
  let ((chomping, given), gs) ← blockHead? gs
  let known := given.map fun n => around.getD 0 + n
  let ((widest, more), gs) ← blockGap? known 0 [] gs
  let least := (around.map (· + 1)).getD 0
  let depth := known.getD (max 1 (max least widest))
  let (lines, rest) ← blockLines? isFolded depth (gs.length + 1) ⟨[], false, [], more⟩ gs
  let tail := match chomping with
    | .strip => []
    | .clip => lines.lineEnd
    | .keep => lines.lineEnd ++ lines.more
  return (String.ofList (lines.read.reverse ++ tail), rest)

end Yaml
end RouteBook
