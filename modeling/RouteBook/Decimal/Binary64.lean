/-! # Double precision numbers

A finite double is `significand * 2 ^ exponent` with a sign.  The only operation that the
library needs is `Binary64.nearest`: the double nearest to a fraction of two natural numbers,
where a fraction halfway between two doubles goes to the one with the even significand.
Reading a decimal, converting a natural number, multiplying and dividing are all instances
of it.  Nothing here uses machine floating point.
-/
namespace RouteBook

/-- A double that is not "not a number".

`finite negative significand exponent` is normal form: the significand is below `2 ^ 53` and,
unless the exponent is `-1074`, at least `2 ^ 52`. -/
inductive Binary64 where
  | infinite (negative : Bool)
  | finite (negative : Bool) (significand : Nat) (exponent : Int)
  deriving DecidableEq, Repr, Inhabited

namespace Binary64

/-- The quotient of two natural numbers rounded to the nearest natural number, a half going
to the even neighbour. -/
def roundDiv (num den : Nat) : Nat :=
  let q := num / den
  let r := num % den
  if 2 * r < den then q
  else if den < 2 * r then q + 1
  else if q % 2 = 0 then q else q + 1

/-- The least exponent of a double. -/
def minExponent : Int := -1074

/-- The greatest exponent of a double. -/
def maxExponent : Int := 971

/-- `roundDiv (num / den) (2 ^ e)` over a common denominator. -/
def scaledDiv (round : Nat → Nat → Nat) (num den : Nat) (e : Int) : Nat :=
  if 0 ≤ e then round num (den * Nat.pow 2 e.toNat)
  else round (num * Nat.pow 2 (-e).toNat) den

/-- The exponent at which `num / den` has a 53 bit significand, but at least `minExponent`. -/
def exponentOf (num den : Nat) : Int :=
  let guess : Int := (num.log2 : Int) - (den.log2 : Int) - 52
  let e := if scaledDiv (· / ·) num den guess < Nat.pow 2 52 then guess - 1 else guess
  max e minExponent

/-- The double nearest to `num / den`, with the given sign. -/
def nearest (negative : Bool) (num den : Nat) : Binary64 :=
  if num = 0 then .finite negative 0 minExponent
  else
    let e := exponentOf num den
    let m := scaledDiv roundDiv num den e
    let (m, e) := if m = Nat.pow 2 53 then (Nat.pow 2 52, e + 1) else (m, e)
    if maxExponent < e then .infinite negative else .finite negative m e

/-- The double with the sign of the given one turned round. -/
def neg : Binary64 → Binary64
  | .infinite negative => .infinite !negative
  | .finite negative m e => .finite (!negative) m e

def isFinite : Binary64 → Bool
  | .infinite _ => false
  | .finite .. => true

/-- The magnitude of a finite double as a fraction. -/
def fraction (m : Nat) (e : Int) : Nat × Nat :=
  if 0 ≤ e then (m * Nat.pow 2 e.toNat, 1) else (m, Nat.pow 2 (-e).toNat)

/-- The double nearest to `digits * 10 ^ exponent`.  Exponents far outside the range of
doubles are decided without computing the power. -/
def ofDecimal (negative : Bool) (digits : Nat) (exponent : Int) : Binary64 :=
  if digits = 0 then .finite negative 0 minExponent
  else if 400 < exponent then .infinite negative
  else if exponent + ((Nat.toDigits 10 digits).length : Int) < -400 then
    .finite negative 0 minExponent
  else if 0 ≤ exponent then nearest negative (digits * Nat.pow 10 exponent.toNat) 1
  else nearest negative digits (Nat.pow 10 (-exponent).toNat)

/-- Multiplication by the magnitude `num / den`, rounded once. -/
def scaleBy (x : Binary64) (num den : Nat) : Binary64 :=
  match x with
  | .infinite negative => .infinite negative
  | .finite negative m e =>
    let (n, d) := fraction m e
    nearest negative (n * num) (d * den)

end Binary64
end RouteBook
