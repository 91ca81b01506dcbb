import RouteBook.Text.Blank
/-! # Pieces of a text

Splitting at a separator and joining with one, and the lines of a text.  Joining the pieces
that splitting gives yields the text back, so no character is lost between the two.
-/
namespace RouteBook
namespace Text

/-- Splits a text at every occurrence of a separator.  There is always at least one piece. -/
def splitAt (sep : Char) : List Char → List (List Char)
  | [] => [[]]
  | c :: cs =>
    if c = sep then [] :: splitAt sep cs
    else
      match splitAt sep cs with
      | [] => [[c]]
      | piece :: pieces => (c :: piece) :: pieces

/-- Joins pieces with a separator between any two of them. -/
def joinWith (sep : List Char) : List (List Char) → List Char
  | [] => []
  | [piece] => piece
  | piece :: pieces => piece ++ sep ++ joinWith sep pieces

theorem splitAt_ne_nil (sep : Char) (cs : List Char) : splitAt sep cs ≠ [] := by
  cases cs with
  | nil => simp [splitAt]
  | cons c cs =>
    unfold splitAt
    split
    · simp
    · split <;> simp

/-- Joining the pieces with the separator gives the text back. -/
theorem joinWith_splitAt (sep : Char) (cs : List Char) :
    joinWith [sep] (splitAt sep cs) = cs := by
  induction cs with
  | nil => rfl
  | cons c cs ih =>
    unfold splitAt
    split
    · rename_i h
      subst h
      cases hs : splitAt c cs with
      | nil => exact absurd hs (splitAt_ne_nil c cs)
      | cons p ps => simp [joinWith, ← hs, ih]
    · cases hs : splitAt sep cs with
      | nil => exact absurd hs (splitAt_ne_nil sep cs)
      | cons p ps =>
        rw [hs] at ih
        cases ps with
        | nil => simpa [joinWith] using ih
        | cons q qs => simpa [joinWith] using ih

/-- Splits a text at the first occurrence of a character that satisfies a test; the
character itself is in neither part. -/
def cutAt? (test : Char → Bool) : List Char → Option (List Char × List Char)
  | [] => none
  | c :: cs =>
    if test c then some ([], cs)
    else (cutAt? test cs).map fun (before, after) => (c :: before, after)

/-- Drops one carriage return at the end of a line. -/
def dropCarriageReturn (line : List Char) : List Char :=
  if line.getLast? = some '\r' then line.dropLast else line

/-- The lines of a text.  A line ends at a line feed, which may follow a carriage return;
an end of line at the end of the text opens no further line.  Without a line feed after it
a carriage return belongs to the line. -/
def lines (cs : List Char) : List (List Char) :=
  let pieces := splitAt '\n' cs
  let ended := pieces.dropLast.map dropCarriageReturn
  match pieces.getLast? with
  | some [] => ended
  | some line => ended ++ [line]
  | none => ended

/-- Joins strings with a separator between any two of them. -/
def joined (sep : String) (pieces : List String) : String :=
  String.ofList (joinWith sep.toList (pieces.map String.toList))

/-- The pieces of a string between two separators. -/
def pieces (sep : Char) (s : String) : List String :=
  (splitAt sep s.toList).map String.ofList

/-- ASCII lower case. -/
def lowered (s : String) : String := String.ofList (s.toList.map Char.toLower)

/-- Whether a string contains a character. -/
def hasChar (s : String) (c : Char) : Bool := s.toList.contains c

end Text
end RouteBook
