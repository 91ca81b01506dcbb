import RouteBook.Yaml.Token
/-! # Names, tags and directives in a text

A node may have a name and a tag.  A tag may begin with a handle, for which a directive at the
top of the document can give the front part.
-/
namespace RouteBook
namespace Yaml

/-- Characters of names and handles. -/
def isWordChar (c : Char) : Bool := c.isAlphanum || c = '-' || c = '_'

/-- The characters at the front that satisfy a test. -/
def spanGlyphs (test : Char → Bool) (gs : List Glyph) : List Char × List Glyph :=
  ((gs.takeWhile fun g => test g.char).map (·.char), gs.dropWhile fun g => test g.char)

/-- The name of a node, behind the mark that introduces it. -/
def anchorName? : Reading String := fun gs => do
  let (name, rest) := spanGlyphs isWordChar gs
  let isEnded := atGap rest || (front? rest).any fun c => "?:,]\x7d%@`".toList.contains c
  if name.isEmpty || !isEnded then none else some (String.ofList name, rest)

/-! ### Tags -/

/-- How many bytes a character has whose first byte is given. -/
def byteCount? (first : Nat) : Option Nat :=
  if first < 0x80 then some 1
  else if first < 0xC0 then none
  else if first < 0xE0 then some 2
  else if first < 0xF0 then some 3
  else if first < 0xF8 then some 4
  else none

/-- A byte as two hexadecimal digits behind a percent sign. -/
def escapedByte? : Reading Nat
  | ⟨'%', _, _, _⟩ :: a :: b :: gs => (digits? 16 [a.char, b.char]).map fun n => (n, gs)
  | _ => none

/-- Further bytes of a character, of which the first bits are known. -/
def moreBytes? : (count : Nat) → (value : Nat) → Reading Nat
  | 0, value, gs => some (value, gs)
  | count + 1, value, gs => do
    let (byte, gs) ← escapedByte? gs
    if byte / 64 ≠ 2 then none else moreBytes? count (64 * value + byte % 64) gs

/-- A character whose bytes are escaped. -/
def escapedChar? : Reading Char := fun gs => do
  let (byte, gs) ← escapedByte? gs
  let count ← byteCount? byte
  let bits := match count with
    | 1 => byte
    | 2 => byte % 32
    | 3 => byte % 16
    | _ => byte % 8
  let (n, gs) ← moreBytes? (count - 1) bits gs
  return (Char.ofNat n, gs)

/-- Characters of a tag.  A tag in angle brackets may hold a few more. -/
def isTagChar (bracketed : Bool) (c : Char) : Bool :=
  isWordChar c || ";/?:@&=+$.!~*\x27()%".toList.contains c
    || (bracketed && [',', '[', ']'].contains c)

/-- The characters of a tag, some of which may be escaped. -/
def tagChars? (bracketed : Bool) : (fuel : Nat) → Reading (List Char)
  | fuel + 1, g :: gs => do
    if !isTagChar bracketed g.char then return ([], g :: gs)
    let (c, rest) ← if g.char = '%' then escapedChar? (g :: gs) else some (g.char, gs)
    let (cs, rest) ← tagChars? bracketed fuel rest
    return (c :: cs, rest)
  | _, gs => some ([], gs)

/-- The characters of a tag, at least one. -/
def tagText? (bracketed : Bool) : Reading String := fun gs => do
  let (cs, rest) ← tagChars? bracketed gs.length gs
  if cs.isEmpty then none else some (String.ofList cs, rest)

/-- A handle, or what could have become one: an exclamation mark, a word, and perhaps another
exclamation mark. -/
def handle? : Reading (List Char)
  | ⟨'!', _, _, _⟩ :: gs =>
    let (word, rest) := spanGlyphs isWordChar gs
    if front? rest == some '!' then some ('!' :: (word ++ ['!']), rest.drop 1)
    else some ('!' :: word, rest)
  | _ => none

/-- Whether an exclamation mark begins and another one ends a handle. -/
def isFullHandle (handle : List Char) : Bool :=
  handle.length > 1 && handle.getLast? == some '!'

/-- The parts of a tag: its handle and the rest of it. -/
def tagParts? : Reading (String × String) := fun gs => do
  if startsWith ['!', '<'] gs then
    let (suffix, rest) ← tagText? true (gs.drop 2)
    if front? rest == some '>' then return (("", suffix), rest.drop 1) else none
  else
    let (handle, rest) ← handle? gs
    if isFullHandle handle then
      let (suffix, rest) ← tagText? false rest
      return ((String.ofList handle, suffix), rest)
    else
      let (more, rest) ← tagChars? false rest.length rest
      let suffix := handle.drop 1 ++ more
      return (if suffix.isEmpty then ("", "!") else ("!", String.ofList suffix), rest)

/-- A tag.  It ends with a gap or, between brackets, with a comma. -/
def tag? (inFlow : Bool) : Reading Token := fun gs => do
  let ((handle, suffix), rest) ← tagParts? gs
  if atGap rest || (inFlow && front? rest == some ',') then return (.tag handle suffix, rest)
  else none

/-! ### Directives -/

/-- A number of up to nine digits. -/
def versionNumber? : Reading Nat := fun gs => do
  let (ds, rest) := spanGlyphs Char.isDigit gs
  if ds.isEmpty || ds.length > 9 then none else some (Decimal.ofDigits ds, rest)

/-- The version that is claimed. -/
def version? : Reading Token := fun gs => do
  let (major, gs) ← versionNumber? (skipBlanks gs)
  if front? gs ≠ some '.' then none
  let (minor, gs) ← versionNumber? (gs.drop 1)
  return (.version major minor, gs)

/-- The front part that a handle stands for. -/
def handleLead? : Reading Token := fun gs => do
  let (handle, gs) ← handle? (skipBlanks gs)
  if !(handle = ['!'] || isFullHandle handle) || !(front? gs).any isBlank then none
  let (lead, gs) ← tagText? true (skipBlanks gs)
  if atGap gs then return (.handle (String.ofList handle) lead, gs) else none

/-- A directive behind its percent sign, up to the end of the line. -/
def directive? : Reading Token := fun gs => do
  let (name, gs) := spanGlyphs isWordChar gs
  if !atGap gs then none
  let (token, gs) ←
    match String.ofList name with
    | "YAML" => version? gs
    | "TAG" => handleLead? gs
    | _ => none
  return (token, ← finishLine? gs)

end Yaml
end RouteBook
