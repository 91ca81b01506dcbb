import RouteBook.Yaml.Glyph
/-! # Quoted scalars in a text

Between single quotes only the quote itself is special and is written twice.  Between double
quotes a backslash begins an escape.
-/
namespace RouteBook
namespace Yaml

/-- The character that a letter behind a backslash stands for. -/
def shortEscape? (c : Char) : Option Char :=
  [('0', 0x00), ('a', 0x07), ('b', 0x08), ('t', 0x09), ('\t', 0x09), ('n', 0x0A), ('v', 0x0B),
    ('f', 0x0C), ('r', 0x0D), ('e', 0x1B), (' ', 0x20), ('"', 0x22), ('/', 0x2F), ('\\', 0x5C),
    ('N', 0x85), ('_', 0xA0), ('L', 0x2028), ('P', 0x2029)].lookup c |>.map Char.ofNat

/-- How many hexadecimal digits follow a letter behind a backslash. -/
def hexCount? (c : Char) : Option Nat := [('x', 2), ('u', 4), ('U', 8)].lookup c

/-- The character behind a backslash. -/
def escape? : Reading Char
  | [] => none
  | g :: gs =>
    match shortEscape? g.char with
    | some c => some (c, gs)
    | none => do
      let count ← hexCount? g.char
      let ds := (gs.take count).map (·.char)
      if ds.length < count then none
      let n ← digits? 16 ds
      if n.isValidChar then some (Char.ofNat n, gs.drop count) else none

/-- Reads on between quotes; the characters so far are given in reverse. -/
def quotedChars (quote : Char) :
    (fuel : Nat) → (gap : Gap) → (read : List Char) → Reading (List Char)
  | fuel + 1, gap, read, g :: gs =>
    if isBlank g.char then quotedChars quote fuel (gap.addBlank g.char) read gs
    else if isBreak g.char then quotedChars quote fuel (gap.addBreak g.char) read gs
    else if atDocumentMark (g :: gs) then none
    else
      let read := gap.chars.reverse ++ read
      if g.char = quote then
        if quote = '\x27' && front? gs == some quote then
          quotedChars quote fuel .none (quote :: read) (gs.drop 1)
        else some (read.reverse, gs)
      else if quote = '"' && g.char = '\\' then
        if (front? gs).any isBreak then quotedChars quote fuel .escaped read (gs.drop 1)
        else do
          let (c, gs) ← escape? gs
          quotedChars quote fuel .none (c :: read) gs
      else quotedChars quote fuel .none (g.char :: read) gs
  | _, _, _, _ => none

/-- A quoted scalar behind its opening quote. -/
def quoted? (quote : Char) : Reading String := fun gs => do
  let (text, rest) ← quotedChars quote gs.length .none [] gs
  return (String.ofList text, rest)

end Yaml
end RouteBook
