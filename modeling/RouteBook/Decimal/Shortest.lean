import RouteBook.Decimal.Binary64
/-! # The shortest decimal that reads back

The *interval* of a double is the set of reals that round to it.  For one digit, two digits
and so on up to seventeen, `shortest` looks at the two neighbours of the number on the grid of
decimals with so many digits; the first grid with a neighbour inside the interval gives the
answer, and of two such neighbours the nearer one wins.
-/
namespace RouteBook
namespace Decimal

/-- A decimal `digits * 10 ^ exponent`. -/
structure Scientific where
  digits : Nat
  exponent : Int
  deriving DecidableEq, Repr, Inhabited

/-- Which neighbour an exact half goes to. -/
inductive Tie where
  | toEven
  | upward
  deriving DecidableEq, Repr

/-- Compares `a * 10 ^ p` with `b * 2 ^ q` over a common denominator. -/
def compareScaled (a : Nat) (p : Int) (b : Nat) (q : Int) : Ordering :=
  compare (a * Nat.pow 10 p.toNat * Nat.pow 2 (-q).toNat)
    (b * Nat.pow 2 q.toNat * Nat.pow 10 (-p).toNat)

/-- Whether the decimal `g * 10 ^ p` rounds to the double `m * 2 ^ e`.  In units of
`2 ^ (e - 2)` the double is `4 * m`, the upper end of its interval `4 * m + 2`, and the lower
end `4 * m - 2`, or `4 * m - 1` where the next lower double is only half a step away. -/
def roundsTo (g : Nat) (p : Int) (m : Nat) (e : Int) : Bool :=
  let low := if m = Nat.pow 2 52 ∧ Binary64.minExponent < e then 4 * m - 1 else 4 * m - 2
  let high := 4 * m + 2
  let inside (o : Ordering) (strict : Ordering) : Bool :=
    o == strict || (o == .eq && m % 2 == 0)
  inside (compareScaled g p low (e - 2)) .gt && inside (compareScaled g p high (e - 2)) .lt

/-- The least `t ≤ fuel` with `den ≤ num * 10 ^ t`. -/
def leadingZeros (fuel : Nat) (num den : Nat) : Nat :=
  match fuel with
  | 0 => 0
  | fuel + 1 => if den ≤ num then 0 else leadingZeros fuel (num * 10) den + 1

/-- The exponent of the leading digit of `num / den`. -/
def leadingExponent (num den : Nat) : Int :=
  if den ≤ num then ((Nat.toDigits 10 (num / den)).length : Int) - 1
  else -(leadingZeros 400 num den : Int)

/-- The floor of `num / den / 10 ^ p`, and how twice the remainder compares with one grid
step. -/
def gridFloor (num den : Nat) (p : Int) : Nat × Ordering :=
  let n := num * Nat.pow 10 (-p).toNat
  let d := den * Nat.pow 10 p.toNat
  (n / d, compare (2 * (n % d)) d)

/-- The answer on the grid of decimals with exponent `p`, if there is one. -/
def onGrid? (tie : Tie) (m : Nat) (e : Int) (p : Int) : Option Nat :=
  let (num, den) := Binary64.fraction m e
  let (lower, half) := gridFloor num den p
  let upper := lower + 1
  match lower != 0 && roundsTo lower p m e, roundsTo upper p m e with
  | true, true =>
    match half with
    | .lt => some lower
    | .gt => some upper
    | .eq => if tie = .toEven ∧ lower % 2 = 0 then some lower else some upper
  | true, false => some lower
  | false, true => some upper
  | false, false => none

/-- Divides out trailing zeros. -/
def stripZeros (fuel : Nat) (s : Scientific) : Scientific :=
  match fuel with
  | 0 => s
  | fuel + 1 =>
    if s.digits % 10 = 0 ∧ s.digits ≠ 0 then
      stripZeros fuel ⟨s.digits / 10, s.exponent + 1⟩
    else s

/-- Looks at the grids of `count`, `count + 1`, … digits. -/
def search (tie : Tie) (m : Nat) (e leading : Int) (fuel count : Nat) : Scientific :=
  let p := leading - count + 1
  match fuel with
  | 0 => ⟨(gridFloor (Binary64.fraction m e).1 (Binary64.fraction m e).2 p).1, p⟩
  | fuel + 1 =>
    match onGrid? tie m e p with
    | some g => ⟨g, p⟩
    | none => search tie m e leading fuel (count + 1)

/-- The shortest decimal that reads back as `m * 2 ^ e`, without trailing zeros. -/
def shortest (tie : Tie) (m : Nat) (e : Int) : Scientific :=
  if m = 0 then ⟨0, 0⟩
  else
    let (num, den) := Binary64.fraction m e
    stripZeros 20 (search tie m e (leadingExponent num den) 17 1)

/-- The decimal digits of a natural number. -/
def digitsOf (n : Nat) : List Char := Nat.toDigits 10 n

/-- The number written without an exponent: `15` with exponent `-3` is `0.015`. -/
def positional (s : Scientific) : List Char :=
  let ds := digitsOf s.digits
  if 0 ≤ s.exponent then
    if s.digits = 0 then ds else ds ++ List.replicate s.exponent.toNat '0'
  else
    let places := (-s.exponent).toNat
    if places < ds.length then
      ds.take (ds.length - places) ++ '.' :: ds.drop (ds.length - places)
    else '0' :: '.' :: (List.replicate (places - ds.length) '0' ++ ds)

/-- The sign, then the magnitude. -/
def signed (negative : Bool) (cs : List Char) : List Char :=
  if negative then '-' :: cs else cs

/-- A double written positionally, whatever its size: a whole number has no point, and `inf`
stands for infinity. -/
def plain (x : Binary64) : String :=
  match x with
  | .infinite negative => String.ofList (signed negative ['i', 'n', 'f'])
  | .finite negative m e =>
    String.ofList (signed negative (positional (shortest .upward m e)))

/-- How a data format writes a double.  A number whose point stands behind digit number
`least` to `greatest` is written positionally and any other with an exponent; `plus` says
whether a positive exponent carries a sign. -/
structure Layout where
  least : Int
  greatest : Int
  plus : Bool
  deriving DecidableEq, Repr

/-- A nonzero decimal in a layout.  A whole number ends in `.0`. -/
def Layout.write (layout : Layout) (s : Scientific) : List Char :=
  let ds := digitsOf s.digits
  let point : Int := ds.length + s.exponent
  if layout.least ≤ point ∧ point ≤ layout.greatest then
    if 0 ≤ s.exponent then positional s ++ ['.', '0'] else positional s
  else
    let mantissa :=
      match ds with
      | [] => []
      | [d] => [d]
      | d :: rest => d :: '.' :: rest
    let power := point - 1
    let sign := if power < 0 then ['-'] else if layout.plus then ['+'] else []
    mantissa ++ 'e' :: (sign ++ digitsOf power.natAbs)

/-- A finite double in a layout. -/
def Layout.finite (layout : Layout) (negative : Bool) (m : Nat) (e : Int) : List Char :=
  signed negative (if m = 0 then ['0', '.', '0'] else layout.write (shortest .toEven m e))

/-- An integer in decimal. -/
def ofInt (n : Int) : String :=
  String.ofList (signed (n < 0) (digitsOf n.natAbs))

end Decimal
end RouteBook
