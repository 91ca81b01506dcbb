import RouteBook.Source.Token
/-! # Reading tokens

`Token.scan?` reads a text into token trees, or fails on an unknown character, on a bracket
without its partner and on a literal that does not end.  White space and comments separate
tokens; a documentation comment is read as the attribute `#[doc = "…"]` that it stands for.
-/
namespace RouteBook
namespace Source

/-- Reading a part of a text gives a value and the rest of the text. -/
abbrev Scan (α : Type) := List Char → Option (α × List Char)

namespace Scan

/-- What follows a given word at the front of a text. -/
def after? (word : String) (cs : List Char) : Option (List Char) :=
  if word.toList.isPrefixOf cs then some (cs.drop word.length) else none

def startsWith (word : String) (cs : List Char) : Bool := word.toList.isPrefixOf cs

/-- The white space of source text: blanks, and the marks that turn the direction of writing. -/
def isSpace (c : Char) : Bool :=
  let n := c.toNat
  n == 0x20 || (9 ≤ n && n ≤ 13) || n == 0x85 || n == 0xA0 || n == 0x1680 ||
    (0x2000 ≤ n && n ≤ 0x200A) || n == 0x2028 || n == 0x2029 || n == 0x202F ||
    n == 0x205F || n == 0x3000 || n == 0x200E || n == 0x200F

/-- The rest of the line and the text behind it, which begins with the line feed.  A carriage
return before the line feed belongs to neither. -/
def line : List Char → List Char × List Char
  | [] => ([], [])
  | '\n' :: cs => ([], '\n' :: cs)
  | '\r' :: '\n' :: cs => ([], '\n' :: cs)
  | c :: cs =>
    let (taken, rest) := line cs
    (c :: taken, rest)

/-- The inside of a block comment, whose opening has been read, and the text behind it.
Comments nest; `depth` counts those open inside. -/
def blockBody? (depth : Nat) : Scan (List Char)
  | '/' :: '*' :: cs => (blockBody? (depth + 1) cs).map fun (b, r) => ('/' :: '*' :: b, r)
  | '*' :: '/' :: cs =>
    match depth with
    | 0 => some ([], cs)
    | depth + 1 => (blockBody? depth cs).map fun (b, r) => ('*' :: '/' :: b, r)
  | c :: cs => (blockBody? depth cs).map fun (b, r) => (c :: b, r)
  | [] => none

/-- The inside of the block comment at the front of a text. -/
def block? (cs : List Char) : Option (List Char × List Char) := do
  let rest ← after? "/*" cs
  blockBody? 0 rest

/-- What follows a comment that documents nothing, if the text begins with one. -/
def comment? (cs : List Char) : Option (List Char) :=
  if startsWith "//" cs && (!startsWith "///" cs || startsWith "////" cs)
      && !startsWith "//!" cs then
    some (line cs).2
  else if startsWith "/**/" cs then some (cs.drop 4)
  else if startsWith "/*" cs && (!startsWith "/**" cs || startsWith "/***" cs)
      && !startsWith "/*!" cs then
    (block? cs).map Prod.snd
  else none

/-- Passes over white space and comments. -/
def skipSpace (fuel : Nat) (cs : List Char) : List Char :=
  match fuel with
  | 0 => cs
  | fuel + 1 =>
    match comment? cs with
    | some rest => skipSpace fuel rest
    | none =>
      match cs with
      | c :: rest => if isSpace c then skipSpace fuel rest else cs
      | [] => []

/-- Whether every carriage return stands before a line feed. -/
def noBareReturn : List Char → Bool
  | [] => true
  | '\r' :: '\n' :: cs => noBareReturn cs
  | '\r' :: _ => false
  | _ :: cs => noBareReturn cs

/-- The text of a documentation comment, and whether it documents what encloses it. -/
def docComment? (cs : List Char) : Option ((List Char × Bool) × List Char) := do
  let ((text, inner), rest) ←
    if startsWith "//!" cs then
      let (text, rest) := line (cs.drop 3)
      some ((text, true), rest)
    else if startsWith "/*!" cs then
      (block? cs).map fun (body, rest) => ((body.drop 1, true), rest)
    else if startsWith "///" cs then
      if startsWith "////" cs then none
      else
        let (text, rest) := line (cs.drop 3)
        some ((text, false), rest)
    else if startsWith "/**" cs && !startsWith "/***" cs then
      (block? cs).map fun (body, rest) => ((body.drop 1, false), rest)
    else none
  if noBareReturn text then some ((text, inner), rest) else none

/-! ### Identifiers -/

/-- An identifier that is not raw. -/
def word? : Scan PlainWord
  | [] => none
  | c :: cs =>
    if h : isIdentStart c then
      some (⟨c, cs.takeWhile isIdentContinue, h, List.all_takeWhile⟩,
        cs.dropWhile isIdentContinue)
    else none

/-- An identifier, raw or not. -/
def ident? (cs : List Char) : Option (Word × List Char) :=
  match after? "r#" cs with
  | none => (word? cs).map fun (w, rest) => (.plain w, rest)
  | some cs => do
    let (w, rest) ← word? cs
    if h : w.text ∈ neverRaw then none else some (.raw w h, rest)

/-- Drops the suffix of a literal. -/
def dropSuffix (cs : List Char) : List Char :=
  match word? cs with
  | some (_, rest) => rest
  | none => cs

/-! ### Characters and strings -/

/-- The value of a hexadecimal digit. -/
def hexValue? (c : Char) : Option Nat :=
  if '0' ≤ c ∧ c ≤ '9' then some (c.toNat - '0'.toNat)
  else if 'a' ≤ c ∧ c ≤ 'f' then some (c.toNat - 'a'.toNat + 10)
  else if 'A' ≤ c ∧ c ≤ 'F' then some (c.toNat - 'A'.toNat + 10)
  else none

/-- Two hexadecimal digits behind `\x`, of a value up to `limit`. -/
def hexEscape? (limit : Nat) : Scan Nat
  | a :: b :: cs => do
    let a ← hexValue? a
    let b ← hexValue? b
    if a * 16 + b ≤ limit then some (a * 16 + b, cs) else none
  | _ => none

/-- The digits of `\u{…}` behind the opening brace: one to six, with underscores after the
first. -/
def unicodeDigits? (value count : Nat) : Scan Char
  | [] => none
  | c :: cs =>
    match hexValue? c with
    | some d => if count = 6 then none else unicodeDigits? (value * 16 + d) (count + 1) cs
    | none =>
      if count = 0 then none
      else if c = '_' then unicodeDigits? value count cs
      else if c = '\x7d' then
        if value < 0xD800 ∨ (0xDFFF < value ∧ value < 0x110000) then
          some (Char.ofNat value, cs)
        else none
      else none

/-- A Unicode escape behind `\u`. -/
def unicodeEscape? : Scan Char
  | '\x7b' :: cs => unicodeDigits? 0 0 cs
  | _ => none

/-- The character for a single letter behind a backslash. -/
def shortEscape? (c : Char) : Option Char :=
  match c with
  | 'n' => some '\n'
  | 'r' => some '\r'
  | 't' => some '\t'
  | '\\' => some '\\'
  | '0' => some (Char.ofNat 0)
  | '\x27' => some '\x27'
  | '\x22' => some '\x22'
  | _ => none

/-- What follows the white space behind a backslash at the end of a line.  A carriage return
must stand before a line feed, and something must follow. -/
def continued? : List Char → Option (List Char)
  | '\r' :: '\n' :: cs => continued? cs
  | '\r' :: _ => none
  | [] => none
  | c :: cs => if c = ' ' ∨ c = '\t' ∨ c = '\n' then continued? cs else some (c :: cs)

/-- The three kinds of strings. -/
inductive StringKind where
  | text
  | bytes
  | cText
  deriving DecidableEq

/-- The greatest value of `\x` in a string. -/
def StringKind.hexLimit : StringKind → Nat
  | .text => 127
  | _ => 255

/-- Whether a character may stand in a string as it is. -/
def StringKind.admits (kind : StringKind) (c : Char) : Bool :=
  match kind with
  | .text => true
  | .bytes => c.toNat < 128
  | .cText => c.toNat ≠ 0

/-- The value of a string whose opening quote has been read; `read` holds its characters from
last to first. -/
def stringBody? (kind : StringKind) (fuel : Nat) (read : List Char) (cs : List Char) :
    Option (List Char × List Char) :=
  match fuel, cs with
  | _, '\x22' :: rest => some (read.reverse, rest)
  | fuel + 1, '\r' :: '\n' :: rest => stringBody? kind fuel ('\n' :: read) rest
  | _, '\r' :: _ => none
  | fuel + 1, '\\' :: 'x' :: rest => do
    let (n, rest) ← hexEscape? kind.hexLimit rest
    if kind = .cText ∧ n = 0 then none
    stringBody? kind fuel (Char.ofNat n :: read) rest
  | fuel + 1, '\\' :: 'u' :: rest =>
    if kind = .bytes then none
    else do
      let (c, rest) ← unicodeEscape? rest
      if kind = .cText ∧ c.toNat = 0 then none
      stringBody? kind fuel (c :: read) rest
  | fuel + 1, '\\' :: '\n' :: rest => do
    let rest ← continued? ('\n' :: rest)
    stringBody? kind fuel read rest
  | fuel + 1, '\\' :: '\r' :: rest => do
    let rest ← continued? ('\r' :: rest)
    stringBody? kind fuel read rest
  | fuel + 1, '\\' :: c :: rest => do
    let c ← shortEscape? c
    if kind = .cText ∧ c.toNat = 0 then none
    stringBody? kind fuel (c :: read) rest
  | fuel + 1, c :: rest => if kind.admits c then stringBody? kind fuel (c :: read) rest else none
  | _, _ => none

/-- The value of a raw string that ends with a quote and as many number signs as it has
begun with. -/
def rawBody? (kind : StringKind) (close : List Char) : Scan (List Char)
  | [] => none
  | '\r' :: '\n' :: cs => (rawBody? kind close cs).map fun (b, r) => ('\r' :: '\n' :: b, r)
  | c :: cs =>
    if c = '\r' then none
    else if c = '\x22' ∧ close.isPrefixOf cs = true then some ([], cs.drop close.length)
    else if kind.admits c then (rawBody? kind close cs).map fun (b, r) => (c :: b, r)
    else none

/-- A raw string behind its `r`. -/
def rawString? (kind : StringKind) (cs : List Char) : Option (List Char × List Char) :=
  let signs := cs.takeWhile (· = '#')
  match cs.dropWhile (· = '#') with
  | '\x22' :: rest => if signs.length ≤ 255 then rawBody? kind signs rest else none
  | _ => none

/-- A string of any kind, without its suffix. -/
def string? (cs : List Char) : Option (Literal × List Char) :=
  let cooked (kind : StringKind) (rest : List Char) := stringBody? kind rest.length [] rest
  let text := fun (p : List Char × List Char) => (Literal.text (String.ofList p.1), p.2)
  let other := fun (p : List Char × List Char) => (Literal.bytes, p.2)
  match cs with
  | '\x22' :: rest => (cooked .text rest).map text
  | 'r' :: rest => (rawString? .text rest).map text
  | 'b' :: '\x22' :: rest => (cooked .bytes rest).map other
  | 'b' :: 'r' :: rest => (rawString? .bytes rest).map other
  | 'c' :: '\x22' :: rest => (cooked .cText rest).map other
  | 'c' :: 'r' :: rest => (rawString? .cText rest).map other
  | _ => none

/-- A byte behind its opening quote. -/
def byte? (cs : List Char) : Option (Literal × List Char) := do
  let rest ←
    match cs with
    | '\\' :: 'x' :: rest => (hexEscape? 255 rest).map Prod.snd
    | '\\' :: c :: rest => (shortEscape? c).map fun _ => rest
    | c :: rest => if c.toNat < 128 then some rest else none
    | [] => none
  let rest ← after? "'" rest
  some (.bytes, rest)

/-- A character behind its opening quote. -/
def char? (cs : List Char) : Option (Literal × List Char) := do
  let (c, rest) ←
    match cs with
    | '\\' :: 'x' :: rest => (hexEscape? 127 rest).map fun (n, rest) => (Char.ofNat n, rest)
    | '\\' :: 'u' :: rest => unicodeEscape? rest
    | '\\' :: c :: rest => (shortEscape? c).map fun c => (c, rest)
    | c :: rest => some (c, rest)
    | [] => none
  let rest ← after? "'" rest
  some (.char c, rest)

/-! ### Numbers -/

/-- The digits and underscores of an exponent behind its mark and sign, provided that there is
a digit among them. -/
def exponentDigits? (cs : List Char) : Option (List Char × List Char) :=
  let digits := cs.takeWhile fun c => c.isDigit || c = '_'
  if digits.any Char.isDigit then some (digits, cs.drop digits.length) else none

/-- The exponent of a float behind its mark, with its sign.  Underscores may stand before the
sign. -/
def exponent? (cs : List Char) : Option (List Char × List Char) :=
  let bars := cs.takeWhile (· = '_')
  match cs.drop bars.length with
  | '+' :: rest => (exponentDigits? rest).map fun (ds, r) => (bars ++ '+' :: ds, r)
  | '-' :: rest => (exponentDigits? rest).map fun (ds, r) => (bars ++ '-' :: ds, r)
  | rest => (exponentDigits? rest).map fun (ds, r) => (bars ++ ds, r)

/-- A float without its suffix: digits, then a point or an exponent or both.  A point that
another point or an identifier follows is no part of a number.  After a point, an exponent
mark without an exponent is the start of the suffix. -/
def floatBody? (cs : List Char) : Option (List Char × List Char) :=
  match cs with
  | [] => none
  | c :: _ =>
    if !c.isDigit then none
    else
      let isDigitOrBar (c : Char) : Bool := c.isDigit || c = '_'
      let whole := cs.takeWhile isDigitOrBar
      let rest := cs.drop whole.length
      let mark (c : Char) : Bool := c = 'e' || c = 'E'
      match rest with
      | '.' :: rest =>
        let follows :=
          match rest with
          | c :: _ => c = '.' || isIdentStart c
          | [] => false
        if follows then none
        else
          let fraction := rest.takeWhile isDigitOrBar
          let pointed := whole ++ '.' :: fraction
          let rest := rest.drop fraction.length
          match rest with
          | c :: more =>
            if mark c then
              match exponent? more with
              | some (e, rest) => some (pointed ++ c :: e, rest)
              | none => some (pointed, rest)
            else some (pointed, rest)
          | [] => some (pointed, [])
      | c :: more =>
        if mark c then (exponent? more).map fun (e, rest) => (whole ++ c :: e, rest) else none
      | [] => none

/-- The digits of an integer in some base, behind the mark of the base.  A digit that is too
large for the base makes it malformed; a letter ends it. -/
def intDigits? (base : Nat) (seen : Bool) : Scan (List Char)
  | [] => if seen then some ([], []) else none
  | c :: cs =>
    let take (seen : Bool) := (intDigits? base seen cs).map fun (ds, rest) => (c :: ds, rest)
    let stop := if seen then some ([], c :: cs) else none
    if c.isDigit then
      if c.toNat - '0'.toNat < base then take true else none
    else if c = '_' then
      if !seen && base == 10 then none else take seen
    else
      match hexValue? c with
      | some d => if d < base then take true else stop
      | none => stop

/-- An integer without its suffix: the base, the mark of the base, and the digits. -/
def intBody? (cs : List Char) : Option ((Nat × List Char × List Char) × List Char) :=
  let (base, mark) : Nat × List Char :=
    match cs with
    | '0' :: 'x' :: _ => (16, ['0', 'x'])
    | '0' :: 'o' :: _ => (8, ['0', 'o'])
    | '0' :: 'b' :: _ => (2, ['0', 'b'])
    | _ => (10, [])
  (intDigits? base false (cs.drop mark.length)).map fun (ds, rest) => ((base, mark, ds), rest)

/-- The suffix of a number, and the text behind it, which must not go on with a letter. -/
def suffix? (cs : List Char) : Option (List Char × List Char) :=
  let (suffix, rest) :=
    match word? cs with
    | some (w, rest) => (w.first :: w.others, rest)
    | none => ([], cs)
  match rest with
  | c :: _ => if isIdentContinue c then none else some (suffix, rest)
  | [] => some (suffix, rest)

/-- The value of digits in a base. -/
def valueOf (base : Nat) (ds : List Char) : Nat :=
  ds.foldl (fun n c => match hexValue? c with | some d => n * base + d | none => n) 0

/-- The decimal that a float without its suffix denotes. -/
def decimalOf (body : List Char) : Nat × Int :=
  let body := body.filter (· ≠ '_')
  let isMark (c : Char) : Bool := c = 'e' || c = 'E'
  let mantissa := body.takeWhile (!isMark ·)
  let power := (body.dropWhile (!isMark ·)).drop 1
  let whole := mantissa.takeWhile (· ≠ '.')
  let fraction := (mantissa.dropWhile (· ≠ '.')).drop 1
  let e : Int :=
    match power with
    | '-' :: ds => -(valueOf 10 ds : Int)
    | '+' :: ds => valueOf 10 ds
    | ds => valueOf 10 ds
  (valueOf 10 (whole ++ fraction), e - fraction.length)

/-- A float. -/
def float? (cs : List Char) : Option (Literal × List Char) := do
  let (body, rest) ← floatBody? cs
  let (suffix, rest) ← suffix? rest
  let (digits, exponent) := decimalOf body
  some (.float false digits exponent (String.ofList (body ++ suffix)), rest)

/-- An integer.  Any word may be its suffix, also the name of a type of floats. -/
def int? (cs : List Char) : Option (Literal × List Char) := do
  let ((base, mark, ds), rest) ← intBody? cs
  let (suffix, rest) ← suffix? rest
  let written := String.ofList (mark ++ ds ++ suffix)
  some (.int false (valueOf base ds) (String.ofList suffix) written, rest)

/-- A literal with its suffix. -/
def literal? (cs : List Char) : Option (Literal × List Char) :=
  let suffixed := fun (p : Literal × List Char) => (p.1, dropSuffix p.2)
  match string? cs with
  | some p => some (suffixed p)
  | none =>
    let quoted :=
      match cs with
      | 'b' :: '\x27' :: rest => byte? rest
      | '\x27' :: rest => char? rest
      | _ => none
    match quoted with
    | some p => some (suffixed p)
    | none =>
      match float? cs with
      | some p => some p
      | none => int? cs

/-! ### Tokens -/

/-- A punctuation character; the slash of a comment is none. -/
def punctChar? (cs : List Char) : Option (Char × List Char) :=
  match cs with
  | [] => none
  | c :: rest =>
    if startsWith "//" cs || startsWith "/*" cs then none
    else if "~!@#$%^&*-=+|;:,<.>/?'".toList.contains c then some (c, rest)
    else none

/-- A punctuation token.  An apostrophe must begin a lifetime. -/
def punct? (cs : List Char) : Option (Token × List Char) := do
  let (c, rest) ← punctChar? cs
  if c = '\x27' then
    let (_, behind) ← ident? rest
    if startsWith "'" behind || (startsWith "#" behind && !startsWith "r#" rest) then none
    else some (.punct c true, rest)
  else some (.punct c (punctChar? rest).isSome, rest)

/-- The beginnings of strings and bytes, which are never identifiers. -/
def stringOpenings : List String :=
  ["r\"", "r#\"", "r##", "b\"", "b'", "br\"", "br#", "c\"", "cr\"", "cr#"]

/-- A token that is no bracket. -/
def leaf? (cs : List Char) : Option (Token × List Char) :=
  match literal? cs with
  | some (l, rest) => some (.literal l, rest)
  | none =>
    match punct? cs with
    | some p => some p
    | none =>
      if stringOpenings.any fun o => startsWith o cs then none
      else (ident? cs).map fun (w, rest) => (.ident w, rest)

/-- The attribute that a documentation comment stands for, from last token to first. -/
def docTokens (text : List Char) (inner : Bool) : List Token :=
  let doc : Word := .plain ⟨'d', ['o', 'c'], rfl, rfl⟩
  let content : List Token :=
    [.ident doc, .punct '=' false, .literal (.text (String.ofList text))]
  .group .bracket content :: (if inner then [.punct '!' false] else []) ++ [.punct '#' false]

/-- The bracket that a character opens. -/
def opening? (c : Char) : Option Delimiter :=
  if c = '(' then some .paren
  else if c = '[' then some .bracket
  else if c = '\x7b' then some .brace
  else none

/-- The bracket that a character closes. -/
def closing? (c : Char) : Option Delimiter :=
  if c = ')' then some .paren
  else if c = ']' then some .bracket
  else if c = '\x7d' then some .brace
  else none

/-- Reads the trees of a text.  `trees` are those of the innermost open bracket from last to
first, and `enclosing` holds the brackets around it with the trees before each. -/
def trees? (fuel : Nat) (enclosing : List (Delimiter × List Token)) (trees : List Token)
    (cs : List Char) : Option (List Token) :=
  match fuel with
  | 0 => none
  | fuel + 1 =>
    let cs := skipSpace cs.length cs
    match docComment? cs with
    | some ((text, inner), rest) => trees? fuel enclosing (docTokens text inner ++ trees) rest
    | none =>
      match cs with
      | [] => if enclosing.isEmpty then some trees.reverse else none
      | c :: rest =>
        match opening? c, closing? c with
        | some d, _ => trees? fuel ((d, trees) :: enclosing) [] rest
        | none, some d =>
          match enclosing with
          | (open_, before) :: enclosing =>
            if open_ = d then trees? fuel enclosing (.group d trees.reverse :: before) rest
            else none
          | [] => none
        | none, none =>
          match leaf? cs with
          | some (token, rest) => trees? fuel enclosing (token :: trees) rest
          | none => none

end Scan

/-- The token trees of a source text.  A byte order mark at the start is passed over. -/
def Token.scan? (text : List Char) : Option (List Token) :=
  let text := if text.head? = some (Char.ofNat 0xFEFF) then text.drop 1 else text
  Scan.trees? (text.length + 2) [] [] text

end Source
end RouteBook
