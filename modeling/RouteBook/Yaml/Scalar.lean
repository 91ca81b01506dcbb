import RouteBook.Decimal.Reading
import RouteBook.Text.Pieces
/-! # Plain scalars

What a scalar without quotes stands for: nothing, a truth value, a number, or else its text.
-/
namespace RouteBook
namespace Yaml

/-- Whether a plain scalar stands for no value. -/
def isNull (s : String) : Bool := ["", "~", "null", "Null", "NULL"].contains s

/-- The truth value that a plain scalar stands for. -/
def bool? (s : String) : Option Bool :=
  if ["true", "True", "TRUE"].contains s then some true
  else if ["false", "False", "FALSE"].contains s then some false
  else none

/-- Whether a scalar is a row of digits with a zero in front of others, which is no number. -/
def hasLeadingZero (cs : List Char) : Bool :=
  match (Decimal.takeSign cs).2 with
  | '0' :: ds => !ds.isEmpty && ds.all Char.isDigit
  | _ => false

/-- The value of a digit in the given base. -/
def digit? (base : Nat) (c : Char) : Option Nat :=
  let value :=
    if c.isDigit then some (c.toNat - '0'.toNat)
    else if 'a' ≤ c && c ≤ 'f' then some (c.toNat - 'a'.toNat + 10)
    else if 'A' ≤ c && c ≤ 'F' then some (c.toNat - 'A'.toNat + 10)
    else none
  value.filter (· < base)

/-- The number that a non-empty row of digits denotes in the given base. -/
def digits? (base : Nat) (cs : List Char) : Option Nat :=
  if cs.isEmpty then none
  else cs.foldlM (fun n c => (digit? base c).map fun d => base * n + d) 0

/-- A magnitude in base 16, 8, 2 or 10, as its beginning says. -/
def magnitude? : List Char → Option Nat
  | '0' :: 'x' :: cs => digits? 16 cs
  | '0' :: 'o' :: cs => digits? 8 cs
  | '0' :: 'b' :: cs => digits? 2 cs
  | cs => if hasLeadingZero cs then none else digits? 10 cs

/-- The integer of up to 128 bits that a plain scalar denotes. -/
def int? (s : String) : Option Int :=
  let (negative, cs) := Decimal.takeSign s.toList
  let value : Option Int := (magnitude? cs).map fun n => if negative then -(n : Int) else n
  value.filter fun i => -Int.pow 2 127 ≤ i && i < Int.pow 2 128

/-- Whether a plain scalar denotes a number with a point or an exponent, an infinity or none at
all of these. -/
def isFloat (s : String) : Bool :=
  let unsigned := match s.toList with
    | '+' :: cs => cs
    | cs => cs
  let named (sign : String) (names : List String) (t : String) :=
    names.any fun n => t = sign ++ n
  let infinities := [".inf", ".Inf", ".INF"]
  let u := String.ofList unsigned
  named "" infinities u || named "-" infinities s || named "" [".nan", ".NaN", ".NAN"] s
    || (!(s.startsWith "+" && (u.startsWith "+" || u.startsWith "-"))
      && ((Decimal.double? unsigned).filter Binary64.isFinite).isSome)

/-- Whether a plain scalar stands for something other than its text. -/
def isAmbiguous (s : String) : Bool :=
  isNull s || (bool? s).isSome || (int? s).isSome || hasLeadingZero s.toList || isFloat s

end Yaml
end RouteBook
