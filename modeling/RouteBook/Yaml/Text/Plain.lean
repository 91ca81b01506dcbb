import RouteBook.Yaml.Glyph
/-! # Plain scalars in a text

A plain scalar goes on to the next lines as long as these are deep enough, and ends before a
colon or a comment.
-/
namespace RouteBook
namespace Yaml

/-- Characters that end a plain scalar between brackets. -/
def isFlowMark (c : Char) : Bool := ",[]\x7b\x7d".toList.contains c

/-- Reads on in a plain scalar whose characters so far are given in reverse.  Also tells whether
a line has ended behind the scalar. -/
def plainChars (inFlow : Bool) (depth : Nat) (gap : Gap) (read : List Char) :
    List Glyph → Option ((List Char × Bool) × List Glyph)
  | [] => some ((read.reverse, gap.broken), [])
  | g :: gs =>
    let next := front? gs
    let isShallow := gap.broken && g.column < depth
    if isBlank g.char then
      if isShallow && g.char = '\t' then none
      else plainChars inFlow depth (gap.addBlank g.char) read gs
    else if isBreak g.char then plainChars inFlow depth (gap.addBreak g.char) read gs
    else if !gap.isNone
        && ((!inFlow && g.column < depth) || atDocumentMark (g :: gs) || g.char = '#') then
      some ((read.reverse, gap.broken), g :: gs)
    else if inFlow && g.char = ':' && next.any fun c => c = '?' || isFlowMark c then none
    else if (g.char = ':' && isGap next) || (inFlow && isFlowMark g.char) then
      some ((read.reverse, gap.broken), g :: gs)
    else plainChars inFlow depth .none (g.char :: (gap.chars.reverse ++ read)) gs

/-- A plain scalar, at least so deep from its second line on. -/
def plain? (inFlow : Bool) (depth : Nat) : Reading (String × Bool) := fun gs => do
  let ((text, broken), rest) ← plainChars inFlow depth .none [] gs
  return ((String.ofList text, broken), rest)

end Yaml
end RouteBook
