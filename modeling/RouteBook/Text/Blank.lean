/-! # Blank characters and trimming

A character is *blank* when the Unicode property `White_Space` holds of it.  Trimming and
splitting into words are defined here on lists of characters, with the same operations on
strings beside them.
-/
namespace RouteBook
namespace Text

/-- The Unicode property `White_Space`. -/
def isBlank (c : Char) : Bool :=
  let n := c.toNat
  (9 ≤ n && n ≤ 13) || n == 0x20 || n == 0x85 || n == 0xA0 || n == 0x1680 ||
    (0x2000 ≤ n && n ≤ 0x200A) || n == 0x2028 || n == 0x2029 || n == 0x202F ||
    n == 0x205F || n == 0x3000

/-- The text without its leading blanks. -/
def trimStart (cs : List Char) : List Char := cs.dropWhile isBlank

/-- The text without its trailing blanks. -/
def trimEnd (cs : List Char) : List Char := (cs.reverse.dropWhile isBlank).reverse

/-- The text without the blanks at either end. -/
def trim (cs : List Char) : List Char := trimEnd (trimStart cs)

/-- A text with nothing but blanks in it. -/
def isBlankText (cs : List Char) : Bool := cs.all isBlank

/-- The runs between any two neighbouring blanks, empty ones included. -/
def runs : List Char → List (List Char)
  | [] => [[]]
  | c :: cs =>
    if isBlank c then [] :: runs cs
    else
      match runs cs with
      | [] => [[c]]
      | run :: rest => (c :: run) :: rest

/-- The maximal runs of non-blank characters, in order. -/
def words (cs : List Char) : List (List Char) := (runs cs).filter (· ≠ [])

/-- `trim` on strings. -/
def trimmed (s : String) : String := String.ofList (trim s.toList)

/-- Whether a string is empty or holds blanks only. -/
def blank (s : String) : Bool := isBlankText s.toList

/-- A string without the blanks around it, provided that something is left. -/
def nonBlank? (s : String) : Option String :=
  if blank s then none else some (trimmed s)

end Text
end RouteBook
