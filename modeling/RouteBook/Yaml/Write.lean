import RouteBook.Json.Print
import RouteBook.Yaml.Scalar
/-! # Writing YAML

A value in block style: every member and every item on a line of its own, two blanks deeper for
every level, only that the items of a list that is a member stand right below its key.  A text
is written without quotes where that reads back as the same text.  A text of several lines is a
literal block.
-/
namespace RouteBook
namespace Yaml

/-! ### The style of a text -/

/-- Characters that end a line. -/
def isBreak (c : Char) : Bool :=
  let n := c.toNat
  n == 0x0A || n == 0x0D || n == 0x85 || n == 0x2028 || n == 0x2029

/-- Characters that are written as they are: all but control characters, the byte order mark and
two characters without a meaning. -/
def isPrintable (c : Char) : Bool :=
  let n := c.toNat
  n == 0x0A || (0x20 ≤ n && n ≤ 0x7E) || (0xA0 ≤ n && n ≤ 0xD7FF)
    || (0xE000 ≤ n && n ≤ 0xFFFD && n != 0xFEFF) || 0x10000 ≤ n

/-- Whether there is a blank, a line end, or nothing at all. -/
def isGap : Option Char → Bool
  | none => true
  | some c => c = ' ' || c = '\t' || c = Char.ofNat 0 || isBreak c

/-- Characters that mean something at the start of a plain text. -/
def indicators : List Char := "#,[]\x7b\x7d&*!|>'\"%@`".toList

/-- Whether a text without quotes would be cut short, or read as something else, because of a
character behind its first one. -/
def hasInnerIndicator : Option Char → List Char → Bool
  | _, [] => false
  | before, c :: cs =>
    (c = ':' && isGap cs.head?) || (c = '#' && isGap before) || hasInnerIndicator (some c) cs

/-- Whether characters of a text mean something in a plain text. -/
def hasIndicator (cs : List Char) : Bool :=
  match cs with
  | [] => false
  | c :: rest =>
    ['-', '-', '-'].isPrefixOf cs || ['.', '.', '.'].isPrefixOf cs
      || indicators.contains c
      || ((c = '?' || c = ':' || c = '-') && isGap rest.head?)
      || hasInnerIndicator (some c) rest

/-- Whether a blank is followed by a line end. -/
def hasSpaceBreak : List Char → Bool
  | c :: d :: cs => (c = ' ' && isBreak d) || hasSpaceBreak (d :: cs)
  | _ => false

/-- Whether a line end is followed by a blank. -/
def hasBreakSpace : List Char → Bool
  | c :: d :: cs => (isBreak c && d = ' ') || hasBreakSpace (d :: cs)
  | _ => false

/-- How a text may be written. -/
inductive Style where
  | plain
  | single
  | double
  | literal
  deriving DecidableEq, Repr

/-- The style of a text, which stands as a key on the line of its value if `isKey` says so. -/
def styleOf (isKey : Bool) (s : String) : Style :=
  let cs := s.toList
  let special := cs.any (!isPrintable ·) || hasSpaceBreak cs
  let hasBreaks := cs.any isBreak
  let atEdge (c? : Option Char) : Bool := match c? with
    | some c => c = ' ' || isBreak c
    | none => false
  let singleAllowed := !special && !hasBreakSpace cs
  let plainAllowed := singleAllowed && !hasBreaks && !atEdge cs.head? && !atEdge cs.getLast?
    && !hasIndicator cs
  let blockAllowed := !special && cs.getLast? ≠ some ' ' && !cs.isEmpty && !isKey
  let quoted := if singleAllowed then Style.single else .double
  if isKey && hasBreaks then .double
  else if cs.contains '\n' then if blockAllowed then .literal else .double
  else if isAmbiguous s then quoted
  else if plainAllowed then .plain
  else quoted

/-! ### Texts -/

/-- A number in upper case hexadecimal, at least so many digits long. -/
def hex (width n : Nat) : List Char :=
  let ds := (Nat.toDigits 16 n).map Char.toUpper
  List.replicate (width - ds.length) '0' ++ ds

/-- The letter that stands for a character behind a backslash. -/
def escapeLetter? (n : Nat) : Option Char :=
  [(0x00, '0'), (0x07, 'a'), (0x08, 'b'), (0x09, 't'), (0x0A, 'n'), (0x0B, 'v'), (0x0C, 'f'),
    (0x0D, 'r'), (0x1B, 'e'), (0x22, '"'), (0x5C, '\\'), (0x85, 'N'), (0xA0, '_'),
    (0x2028, 'L'), (0x2029, 'P')].lookup n

/-- A character in double quotes. -/
def escaped (c : Char) : List Char :=
  if isPrintable c && !isBreak c && c ≠ '"' && c ≠ '\\' then [c]
  else
    let n := c.toNat
    match escapeLetter? n with
    | some letter => ['\\', letter]
    | none =>
      if n ≤ 0xFF then '\\' :: 'x' :: hex 2 n
      else if n ≤ 0xFFFF then '\\' :: 'u' :: hex 4 n
      else '\\' :: 'U' :: hex 8 n

/-- So many blanks. -/
def pad (n : Nat) : List Char := List.replicate n ' '

/-- A text inside single quotes, behind a line end if `broken` says so.  Lines are indented. -/
def singleChars (indent : Nat) : Bool → List Char → List Char
  | broken, [] => if broken then pad indent else []
  | broken, c :: cs =>
    if c = ' ' then c :: singleChars indent broken cs
    else if isBreak c then
      (if !broken && c = '\n' then [c, c] else [c]) ++ singleChars indent true cs
    else
      (if broken then pad indent else []) ++ (if c = '\x27' then [c, c] else [c])
        ++ singleChars indent false cs

/-- The lines of a literal block, at the start of a line if `broken` says so. -/
def literalChars (indent : Nat) : Bool → List Char → List Char
  | _, [] => []
  | broken, c :: cs =>
    if isBreak c then c :: literalChars indent true cs
    else (if broken then pad indent else []) ++ c :: literalChars indent false cs

/-- What the head of a literal block says: the depth if the block begins with a blank or a line
end, and whether the line ends at its end count. -/
def literalHints (cs : List Char) : List Char :=
  let depth := match cs.head? with
    | some c => if c = ' ' || isBreak c then ['2'] else []
    | none => []
  let ends := match cs.reverse with
    | [] => ['-']
    | [c] => if isBreak c then ['+'] else ['-']
    | c :: d :: _ => if !isBreak c then ['-'] else if isBreak d then ['+'] else []
  depth ++ ends

/-- A text in a style; further lines are indented. -/
def styled (style : Style) (indent : Nat) (cs : List Char) : List Char :=
  match style with
  | .plain => cs
  | .single => '\x27' :: (singleChars indent false cs ++ ['\x27'])
  | .double => '"' :: (cs.flatMap escaped ++ ['"'])
  | .literal => '|' :: (literalHints cs ++ '\n' :: literalChars indent true cs)

/-- Ends the line unless it has been ended already. -/
def endLine (cs : List Char) : List Char :=
  match cs.getLast? with
  | some c => if isBreak c then cs else cs ++ ['\n']
  | none => ['\n']

/-- Doubles have no plus sign in their exponent. -/
def layout : Decimal.Layout := ⟨-4, 16, false⟩

def numberChars : Number → List Char
  | .int n => (Decimal.ofInt n).toList
  | .double (.infinite negative) => Decimal.signed negative ['.', 'i', 'n', 'f']
  | .double (.finite negative m e) => layout.finite negative m e

/-- Whether a key may stand on the line of its value. -/
def isSimpleKey (key : String) : Bool := !key.toList.any isBreak && key.utf8ByteSize ≤ 128

/-! ### Values -/

/-- A key of a map whose lines are so deep, up to the colon before its value.  A long key has a
line of its own. -/
def keyChars (depth : Nat) (key : String) : List Char :=
  if isSimpleKey key then styled (styleOf true key) (depth + 2) key.toList ++ [':']
  else
    '?' :: ' ' :: (endLine (styled (styleOf false key) (depth + 2) key.toList)
      ++ pad depth ++ [':'])

mutual
/-- A value behind what introduces it: a key on the same line if `beside` says so, and otherwise
a dash or a colon at the start of a line.  The lines that it stands among are so deep. -/
def valueChars (depth : Nat) (beside : Bool) : Json → List Char
  | .null => " null\n".toList
  | .bool b => if b then " true\n".toList else " false\n".toList
  | .number n => ' ' :: endLine (numberChars n)
  | .text s => ' ' :: endLine (styled (styleOf false s) (depth + 2) s.toList)
  | .array [] => " []\n".toList
  | .array items =>
    if beside then '\n' :: listChars depth true items else ' ' :: listChars (depth + 2) false items
  | .object [] => " \x7b\x7d\n".toList
  | .object members =>
    if beside then '\n' :: mapChars (depth + 2) true members
    else ' ' :: mapChars (depth + 2) false members

/-- Items, each on a line of its own.  The first one may stand on a line that has begun. -/
def listChars (depth : Nat) (fresh : Bool) : List Json → List Char
  | [] => []
  | item :: items =>
    (if fresh then pad depth else [])
      ++ '-' :: (valueChars depth false item ++ listChars depth true items)

/-- Members, each on a line of its own.  The first one may stand on a line that has begun. -/
def mapChars (depth : Nat) (fresh : Bool) : List (String × Json) → List Char
  | [] => []
  | (key, value) :: members =>
    (if fresh then pad depth else []) ++ keyChars depth key
      ++ valueChars depth (isSimpleKey key) value ++ mapChars depth true members
end

/-- The text of a value as a document of its own. -/
def write (value : Json) : String :=
  match value with
  | .object (m :: members) => String.ofList (mapChars 0 true (m :: members))
  | .array (item :: items) => String.ofList (listChars 0 true (item :: items))
  | value => String.ofList ((valueChars 0 false value).drop 1)

end Yaml
end RouteBook
