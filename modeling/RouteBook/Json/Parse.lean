import RouteBook.Json.Basic
/-! # Reading JSON

`Json.parse?` reads one value and demands that nothing but white space follows it.  When a
key occurs twice in an object, the later value stands at the place of the earlier one.

The digits of a number that is not an integer are gathered into a significand below `2 ^ 64`;
digits that no longer fit are left out.  The significand is rounded to a double, which is then
multiplied or divided by a power of ten, once more rounded.
-/
namespace RouteBook
namespace Json

/-- Reading consumes a part of a text and gives a value, or fails. -/
abbrev Reader (α : Type) := List Char → Option (α × List Char)

/-- The white space of JSON. -/
def isSpace (c : Char) : Bool := c = ' ' || c = '\n' || c = '\t' || c = '\r'

def skipSpace (cs : List Char) : List Char := cs.dropWhile isSpace

/-- Reads the given characters. -/
def expect (word : List Char) (cs : List Char) : Option (List Char) :=
  if word.isPrefixOf cs then some (cs.drop word.length) else none

/-- The value of a hexadecimal digit. -/
def hexValue? (c : Char) : Option Nat :=
  if '0' ≤ c ∧ c ≤ '9' then some (c.toNat - '0'.toNat)
  else if 'a' ≤ c ∧ c ≤ 'f' then some (c.toNat - 'a'.toNat + 10)
  else if 'A' ≤ c ∧ c ≤ 'F' then some (c.toNat - 'A'.toNat + 10)
  else none

/-- Four hexadecimal digits. -/
def unit? : Reader Nat
  | a :: b :: c :: d :: rest => do
    let a ← hexValue? a
    let b ← hexValue? b
    let c ← hexValue? c
    let d ← hexValue? d
    return (a * 4096 + b * 256 + c * 16 + d, rest)
  | _ => none

/-- The character behind `\u`: one unit, or two that form a surrogate pair. -/
def unicodeEscape? (cs : List Char) : Option (Char × List Char) := do
  let (high, rest) ← unit? cs
  if 0xD800 ≤ high ∧ high < 0xDC00 then
    let rest ← expect ['\\', 'u'] rest
    let (low, rest) ← unit? rest
    if 0xDC00 ≤ low ∧ low < 0xE000 then
      return (Char.ofNat (0x10000 + (high - 0xD800) * 1024 + (low - 0xDC00)), rest)
    else none
  else if 0xDC00 ≤ high ∧ high < 0xE000 then none
  else return (Char.ofNat high, rest)

/-- The character that a single letter after a backslash stands for. -/
def shortEscape? (c : Char) : Option Char :=
  match c with
  | '"' => some '"'
  | '\\' => some '\\'
  | '/' => some '/'
  | 'b' => some (Char.ofNat 8)
  | 'f' => some (Char.ofNat 12)
  | 'n' => some '\n'
  | 'r' => some '\r'
  | 't' => some '\t'
  | _ => none

/-- The rest of a string whose opening quote has been read. -/
def stringBody? (fuel : Nat) (cs : List Char) (read : List Char) :
    Option (String × List Char) :=
  match fuel, cs with
  | _, '"' :: rest => some (String.ofList read.reverse, rest)
  | fuel + 1, '\\' :: 'u' :: rest => do
    let (c, rest) ← unicodeEscape? rest
    stringBody? fuel rest (c :: read)
  | fuel + 1, '\\' :: c :: rest => do
    let c ← shortEscape? c
    stringBody? fuel rest (c :: read)
  | fuel + 1, c :: rest => if c.toNat < 32 then none else stringBody? fuel rest (c :: read)
  | _, _ => none

/-- The digits that begin a text. -/
def digits (cs : List Char) : List Nat × List Char :=
  ((cs.takeWhile Char.isDigit).map fun c => c.toNat - '0'.toNat, cs.dropWhile Char.isDigit)

/-- Gathers digits as long as the significand stays below `2 ^ 64`, and counts those taken. -/
def gather (significand taken : Nat) : List Nat → Nat × Nat
  | [] => (significand, taken)
  | d :: ds =>
    if significand * 10 + d < Nat.pow 2 64 then gather (significand * 10 + d) (taken + 1) ds
    else (significand, taken)

/-- The double for `significand * 10 ^ exponent`, computed with one rounded power of ten, or
several for exponents below `-308`. -/
def scaled? (fuel : Nat) (x : Binary64) (exponent : Int) : Option Binary64 :=
  let power (k : Nat) : Nat × Nat :=
    match Binary64.nearest false (Nat.pow 10 k) 1 with
    | .finite _ m e => Binary64.fraction m e
    | .infinite _ => (1, 1)
  if exponent.natAbs ≤ 308 then
    let (n, d) := power exponent.natAbs
    if 0 ≤ exponent then
      let y := x.scaleBy n d
      if y.isFinite then some y else none
    else some (x.scaleBy d n)
  else
    match x with
    | .finite _ 0 _ => some x
    | _ =>
      if 0 ≤ exponent then none
      else
        match fuel with
        | 0 => some x
        | fuel + 1 =>
          let (n, d) := power 308
          scaled? fuel (x.scaleBy d n) (exponent + 308)

/-- An exponent as written, bounded because anything larger acts alike. -/
def boundedExponent (ds : List Nat) : Nat :=
  ds.foldl (fun e d => min (e * 10 + d) 1000000) 0

/-- The exponent part of a number, zero if there is none. -/
def exponentPart? : Reader Int
  | [] => some (0, [])
  | c :: cs =>
    if c = 'e' ∨ c = 'E' then
      let (negative, cs) :=
        match cs with
        | '-' :: cs => (true, cs)
        | '+' :: cs => (false, cs)
        | cs => (false, cs)
      let (ds, rest) := digits cs
      if ds.isEmpty then none
      else
        let e : Int := boundedExponent ds
        some (if negative then -e else e, rest)
    else some (0, c :: cs)

/-- The fraction part of a number: its digits, none if there is no point. -/
def fractionPart? : Reader (List Nat)
  | '.' :: cs =>
    let (ds, rest) := digits cs
    if ds.isEmpty then none else some (ds, rest)
  | cs => some ([], cs)

/-- A number that is written without a fraction and an exponent.  One that does not fit in 64
bits, and a zero with a minus sign, is a double. -/
def wholeNumber? (negative : Bool) (ds : List Nat) : Option Number :=
  let n : Nat := ds.foldl (fun n d => n * 10 + d) 0
  if negative ∧ 0 < n ∧ n ≤ Nat.pow 2 63 then some (.int (-(n : Int)))
  else if ¬negative ∧ n < Nat.pow 2 64 then some (.int n)
  else if n < Nat.pow 2 64 then some (.double (Binary64.nearest negative n 1))
  else
    let (significand, taken) := gather 0 0 ds
    (scaled? 8 (Binary64.nearest negative significand 1) ((ds.length - taken : Nat) : Int)).map
      .double

/-- A number whose first character is a digit. -/
def magnitude? (negative : Bool) (cs : List Char) : Option (Number × List Char) := do
  let (whole, rest) := digits cs
  if whole.isEmpty || (whole.length > 1 && whole.head? == some 0) then none
  let pointed := rest.head? == some '.'
  let (fraction, rest) ← fractionPart? rest
  let powered := rest.head? == some 'e' || rest.head? == some 'E'
  let (exponent, rest) ← exponentPart? rest
  if !pointed && !powered then
    return (← wholeNumber? negative whole, rest)
  let (significand, taken) := gather 0 0 whole
  let dropped := whole.length - taken
  let (significand, places) := gather significand 0 fraction
  let x := Binary64.nearest negative significand 1
  let y ← scaled? 8 x (exponent + dropped - places)
  return (.double y, rest)

/-- A number. -/
def number? : Reader Number
  | '-' :: cs => magnitude? true cs
  | cs => magnitude? false cs

mutual
/-- A value with white space before it. -/
def value? (fuel : Nat) (cs : List Char) : Option (Json × List Char) :=
  match fuel with
  | 0 => none
  | fuel + 1 =>
    match skipSpace cs with
    | '"' :: rest => (stringBody? rest.length rest []).map fun (s, rest) => (.text s, rest)
    | '[' :: rest =>
      match skipSpace rest with
      | ']' :: rest => some (.array [], rest)
      | _ => (items? fuel rest).map fun (items, rest) => (.array items, rest)
    | '\x7b' :: rest =>
      match skipSpace rest with
      | '\x7d' :: rest => some (.object [], rest)
      | _ => (members? fuel rest []).map fun (members, rest) => (.object members, rest)
    | 't' :: rest => (expect ['r', 'u', 'e'] rest).map fun rest => (.bool true, rest)
    | 'f' :: rest => (expect ['a', 'l', 's', 'e'] rest).map fun rest => (.bool false, rest)
    | 'n' :: rest => (expect ['u', 'l', 'l'] rest).map fun rest => (.null, rest)
    | cs => (number? cs).map fun (n, rest) => (.number n, rest)

/-- The values of an array up to its closing bracket. -/
def items? (fuel : Nat) (cs : List Char) : Option (List Json × List Char) :=
  match fuel with
  | 0 => none
  | fuel + 1 => do
    let (item, rest) ← value? fuel cs
    match skipSpace rest with
    | ',' :: rest =>
      let (items, rest) ← items? fuel rest
      return (item :: items, rest)
    | ']' :: rest => return ([item], rest)
    | _ => none

/-- The members of an object up to its closing brace, after those already read. -/
def members? (fuel : Nat) (cs : List Char) (read : List (String × Json)) :
    Option (List (String × Json) × List Char) :=
  match fuel with
  | 0 => none
  | fuel + 1 =>
    match skipSpace cs with
    | '"' :: rest => do
      let (key, rest) ← stringBody? rest.length rest []
      let rest ← expect [':'] (skipSpace rest)
      let (value, rest) ← value? fuel rest
      let read := insertPair key value read
      match skipSpace rest with
      | ',' :: rest => members? fuel rest read
      | '\x7d' :: rest => return (read, rest)
      | _ => none
    | _ => none
end

/-- Reads a text that holds one JSON value and nothing else. -/
def parse? (text : String) : Option Json :=
  let cs := text.toList
  match value? (cs.length + 1) cs with
  | some (value, rest) => if (skipSpace rest).isEmpty then some value else none
  | none => none

end Json
end RouteBook
