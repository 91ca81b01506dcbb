import RouteBook.Decimal.Binary64
/-! # Reading numbers

An optional sign and decimal digits are an integer; with a point among the digits, or an
exponent behind them, they are a double.
-/
namespace RouteBook
namespace Decimal

/-- The number that a row of decimal digits denotes. -/
def ofDigits (ds : List Char) : Nat :=
  ds.foldl (fun n d => 10 * n + (d.toNat - '0'.toNat)) 0

/-- Takes an optional sign off a text; whether it is a minus sign. -/
def takeSign : List Char → Bool × List Char
  | '-' :: cs => (true, cs)
  | '+' :: cs => (false, cs)
  | cs => (false, cs)

/-- A non-empty row of decimal digits. -/
def nat? (cs : List Char) : Option Nat :=
  if !cs.isEmpty && cs.all Char.isDigit then some (ofDigits cs) else none

/-- An integer with an optional sign. -/
def int? (cs : List Char) : Option Int :=
  let (negative, cs) := takeSign cs
  (nat? cs).map fun n => if negative then -(n : Int) else n

/-- The exponent at the end of a number; an absent one is zero. -/
def exponent? : List Char → Option Int
  | [] => some 0
  | c :: cs => if c = 'e' || c = 'E' then int? cs else none

/-- A double with an optional sign, a point and an exponent.  There is a digit on at least one
side of the point. -/
def double? (cs : List Char) : Option Binary64 := do
  let (negative, cs) := takeSign cs
  let whole := cs.takeWhile Char.isDigit
  let cs := cs.dropWhile Char.isDigit
  let (places, cs) := match cs with
    | '.' :: cs => (cs.takeWhile Char.isDigit, cs.dropWhile Char.isDigit)
    | cs => ([], cs)
  if whole.isEmpty && places.isEmpty then none
  let e ← exponent? cs
  return Binary64.ofDecimal negative (ofDigits (whole ++ places)) (e - places.length)

end Decimal
end RouteBook
