import RouteBook.Json.Basic
import RouteBook.Decimal.Shortest
import RouteBook.Text.Pieces
/-! # Writing JSON

`Json.compact` writes a value without any white space and `Json.pretty` writes it over
several lines, two blanks deeper for every level; empty arrays and objects stay on one line.
-/
namespace RouteBook

namespace Json

/-- A hexadecimal digit below sixteen, in lower case. -/
def hexDigit (n : Nat) : Char := Nat.digitChar n

/-- One character inside a JSON string. -/
def escapeChar (c : Char) : List Char :=
  if c = '"' then ['\\', '"']
  else if c = '\\' then ['\\', '\\']
  else if c = '\n' then ['\\', 'n']
  else if c = '\r' then ['\\', 'r']
  else if c = '\t' then ['\\', 't']
  else if c = Char.ofNat 8 then ['\\', 'b']
  else if c = Char.ofNat 12 then ['\\', 'f']
  else if c.toNat < 32 then
    ['\\', 'u', '0', '0', hexDigit (c.toNat / 16), hexDigit (c.toNat % 16)]
  else [c]

/-- A JSON string with its quotes. -/
def quoted (s : String) : List Char := '"' :: (s.toList.flatMap escapeChar ++ ['"'])

/-- Doubles are written positionally from `0.00001` to sixteen digits before the point, and a
positive exponent has a plus sign. -/
def layout : Decimal.Layout := ⟨-4, 16, true⟩

/-- The text of a number.  JSON has no infinity, and `null` is written for it. -/
def numberChars : Number → List Char
  | .int n => (Decimal.ofInt n).toList
  | .double (.infinite _) => ['n', 'u', 'l', 'l']
  | .double (.finite negative m e) => layout.finite negative m e

mutual
/-- The characters of the compact text of a value. -/
def compactChars : Json → List Char
  | .null => ['n', 'u', 'l', 'l']
  | .bool b => if b then ['t', 'r', 'u', 'e'] else ['f', 'a', 'l', 's', 'e']
  | .number n => numberChars n
  | .text s => quoted s
  | .array items => '[' :: (compactItems items ++ [']'])
  | .object members => '{' :: (compactMembers members ++ ['}'])

/-- Values with commas between them. -/
def compactItems : List Json → List Char
  | [] => []
  | [item] => compactChars item
  | item :: items => compactChars item ++ ',' :: compactItems items

/-- Members with commas between them. -/
def compactMembers : List (String × Json) → List Char
  | [] => []
  | [(key, value)] => quoted key ++ ':' :: compactChars value
  | (key, value) :: members =>
    quoted key ++ ':' :: (compactChars value ++ ',' :: compactMembers members)
end

/-- The value on one line without white space. -/
def compact (value : Json) : String := String.ofList value.compactChars

/-- A line feed and the blanks that open a line `depth` levels deep. -/
def freshLine (depth : Nat) : List Char := '\n' :: List.replicate (2 * depth) ' '

mutual
/-- The characters of the text of a value that starts `depth` levels deep. -/
def prettyChars (depth : Nat) : Json → List Char
  | .array [] => ['[', ']']
  | .array items => '[' :: (prettyItems (depth + 1) items ++ freshLine depth ++ [']'])
  | .object [] => ['{', '}']
  | .object members => '{' :: (prettyMembers (depth + 1) members ++ freshLine depth ++ ['}'])
  | .null => compactChars .null
  | .bool b => compactChars (.bool b)
  | .number n => compactChars (.number n)
  | .text s => compactChars (.text s)

/-- Values, each on a fresh line, with commas between them. -/
def prettyItems (depth : Nat) : List Json → List Char
  | [] => []
  | [item] => freshLine depth ++ prettyChars depth item
  | item :: items => freshLine depth ++ prettyChars depth item ++ ',' :: prettyItems depth items

/-- Members, each on a fresh line, with commas between them. -/
def prettyMembers (depth : Nat) : List (String × Json) → List Char
  | [] => []
  | [(key, value)] => freshLine depth ++ quoted key ++ ':' :: ' ' :: prettyChars depth value
  | (key, value) :: members =>
    freshLine depth ++ quoted key ++ ':' :: ' ' :: (prettyChars depth value ++
      ',' :: prettyMembers depth members)
end

/-- The value over several lines. -/
def pretty (value : Json) : String := String.ofList (value.prettyChars 0)

/-- A scalar as it is shown inside other text: a text without quotes, anything else as JSON. -/
def plainText : Json → String
  | .text s => s
  | value => value.compact

end Json
end RouteBook
