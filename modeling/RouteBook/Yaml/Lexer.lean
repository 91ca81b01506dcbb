import RouteBook.Yaml.Property
import RouteBook.Yaml.Text.Block
import RouteBook.Yaml.Text.Plain
import RouteBook.Yaml.Text.Quoted
/-! # From a text to tokens

Outside of brackets the structure of a text is told by its columns: what is deeper than the
lines before opens a block sequence or a map, and what is not so deep closes it.  That something
is a key is known only at the colon behind it; so every place where a key may have begun is
remembered until then, and the tokens for it are put in there afterwards.
-/
namespace RouteBook
namespace Yaml

/-- A place where a key may have begun. -/
structure PossibleKey where
  /-- How many tokens there were before it. -/
  position : Nat
  start : Glyph
  /-- Whether nothing but a key can stand there. -/
  isRequired : Bool
  deriving Repr, Inhabited

structure Lexer where
  rest : List Glyph
  tokens : Array Token
  /-- The columns of the open blocks, the innermost one first. -/
  depths : List Nat
  /-- The last place where a key may have begun: for every open bracket, the innermost one
  first, and outside of all brackets. -/
  keys : List (Option PossibleKey)
  /-- Whether a key may begin here. -/
  allowsKey : Bool
  deriving Inhabited

namespace Lexer

def new (gs : List Glyph) : Lexer := ⟨gs, #[], [], [none], true⟩

def inFlow (s : Lexer) : Bool := s.keys.length > 1

/-- The least column of what belongs to the innermost block. -/
def innerDepth (s : Lexer) : Nat := (s.depths.head?.map (· + 1)).getD 0

def push (s : Lexer) (token : Token) : Lexer := { s with tokens := s.tokens.push token }

/-- Puts a token before the one at the given position. -/
def insert (s : Lexer) (position : Nat) (token : Token) : Lexer :=
  { s with tokens := (s.tokens.extract 0 position).push token ++ s.tokens.extract position }

/-- Takes a token of so many characters. -/
def take (s : Lexer) (count : Nat) (token : Token) : Lexer :=
  { s.push token with rest := s.rest.drop count }

/-- Closes the blocks that are deeper than a column. -/
def closeTo (column : Nat) : List Nat → Lexer → Lexer
  | [], s => { s with depths := [] }
  | d :: ds, s =>
    if column < d then closeTo column ds (s.push .blockEnd) else { s with depths := d :: ds }

/-- Closes the blocks that are deeper than a column, outside of brackets. -/
def unroll (s : Lexer) (column : Nat) : Lexer :=
  if s.inFlow then s else closeTo column s.depths s

/-- Closes all blocks. -/
def closeAll (s : Lexer) : Lexer :=
  if s.inFlow then s
  else { s with tokens := s.depths.foldl (fun ts _ => ts.push .blockEnd) s.tokens, depths := [] }

/-- Opens a block before the token at the given position, if its column is deeper than the
innermost block. -/
def roll (s : Lexer) (column position : Nat) (token : Token) : Lexer :=
  if s.inFlow || s.depths.head?.any (column ≤ ·) then s
  else { s.insert position token with depths := column :: s.depths }

/-- Gives up that a key has begun.  This fails where nothing but a key can stand. -/
def dropKey (s : Lexer) : Option Lexer :=
  match s.keys with
  | some k :: keys => if k.isRequired then none else some { s with keys := none :: keys }
  | _ => some s

/-- Remembers that a key may begin here. -/
def saveKey (s : Lexer) : Option Lexer :=
  match s.rest with
  | [] => some s
  | g :: _ =>
    if !s.allowsKey then some s
    else do
      let s ← s.dropKey
      let key : PossibleKey :=
        ⟨s.tokens.size, g, !s.inFlow && s.depths.head? == some g.column⟩
      return { s with keys := some key :: s.keys.drop 1 }

/-- Whether a key that has begun at a place may end here: on the same line and not too far. -/
def isNear (here : Option Glyph) (start : Glyph) : Bool :=
  here.any fun g => g.line == start.line && g.index ≤ start.index + 1024

/-- Gives up keys that cannot be ended here any more. -/
def dropFarKeys (s : Lexer) : Option Lexer := do
  let keys ← s.keys.mapM fun key? =>
    match key? with
    | none => some none
    | some key =>
      if isNear s.rest.head? key.start then some (some key)
      else if key.isRequired then none
      else some none
  return { s with keys }

/-- Skips blanks, comments and line ends; whether a key may begin behind them.  A tab counts as
a blank only where it cannot be mistaken for depth. -/
def skipGaps (inFlow : Bool) : (allowsKey inComment : Bool) → List Glyph → Bool × List Glyph
  | allowsKey, _, [] => (allowsKey, [])
  | allowsKey, inComment, g :: gs =>
    if isBreak g.char then skipGaps inFlow (allowsKey || !inFlow) false gs
    else if inComment || g.char = ' ' || g.char = '#' || (g.index == 0 && g.char.toNat == 0xFEFF)
        || (g.char = '\t' && (inFlow || !allowsKey)) then
      skipGaps inFlow allowsKey (inComment || g.char = '#') gs
    else (allowsKey, g :: gs)

/-! ### Tokens -/

/-- A line of its own that opens or ends a document, or a directive. -/
def betweenDocuments (s : Lexer) : Option Lexer := do
  let s ← s.closeAll.dropKey
  return { s with allowsKey := false }

/-- An opening bracket. -/
def openFlow (s : Lexer) (token : Token) : Option Lexer := do
  let s ← s.saveKey
  return { s.take 1 token with keys := none :: s.keys, allowsKey := true }

/-- A closing bracket. -/
def closeFlow (s : Lexer) (token : Token) : Option Lexer := do
  let s ← s.dropKey
  let keys := if s.inFlow then s.keys.drop 1 else s.keys
  return { s.take 1 token with keys, allowsKey := false }

def comma (s : Lexer) : Option Lexer := do
  let s ← s.dropKey
  return { s.take 1 .comma with allowsKey := true }

/-- Opens a block of the given kind at a mark, where a key might begin as well. -/
def openBlock (s : Lexer) (column : Nat) (token : Token) : Option Lexer :=
  if s.inFlow then some s
  else if s.allowsKey then some (s.roll column s.tokens.size token)
  else none

/-- A dash. -/
def item (s : Lexer) (column : Nat) : Option Lexer := do
  let s ← s.openBlock column .sequenceStart
  let s ← s.dropKey
  return { s.take 1 .item with allowsKey := true }

/-- A question mark. -/
def key (s : Lexer) (column : Nat) : Option Lexer := do
  let s ← s.openBlock column .mapStart
  let s ← s.dropKey
  return { s.take 1 .key with allowsKey := !s.inFlow }

/-- A colon. -/
def value (s : Lexer) (column : Nat) : Option Lexer :=
  match s.keys with
  | some k :: keys =>
    let s := (s.insert k.position .key).roll k.start.column k.position .mapStart
    some { s.take 1 .value with keys := none :: keys, allowsKey := false }
  | _ => do
    let s ← s.openBlock column .mapStart
    return { s.take 1 .value with allowsKey := !s.inFlow }

/-- A token with which a key may begin. -/
def begin (s : Lexer) (read : Reading Token) : Option Lexer := do
  let s ← s.saveKey
  let (token, rest) ← read s.rest
  return { s.push token with rest, allowsKey := false }

/-- A plain scalar; behind the end of a line a key may begin. -/
def plainScalar (s : Lexer) : Option Lexer := do
  let s ← s.saveKey
  let ((text, broken), rest) ← plain? s.inFlow s.innerDepth s.rest
  return { s.push (.scalar .plain text) with rest, allowsKey := broken }

/-- A block scalar, behind which a key may begin. -/
def blockScalar (s : Lexer) (style : ScalarStyle) : Option Lexer := do
  let s ← s.dropKey
  let (text, rest) ← block? (style == .folded) s.depths.head? (s.rest.drop 1)
  return { s.push (.scalar style text) with rest, allowsKey := true }

/-- Characters with which no plain scalar begins. -/
def isMark (c : Char) : Bool := "-?:,[]\x7b\x7d#&*!|>\x27\"%@`".toList.contains c

/-- The next token, of which the first character is given. -/
def token (s : Lexer) (g : Glyph) : Option Lexer :=
  let behind := s.rest.drop 1
  let standsAlone := atGap behind
  let named (make : String → Token) : Reading Token := fun gs => do
    let (name, rest) ← anchorName? (gs.drop 1)
    return (make name, rest)
  let quoted : Reading Token := fun gs => do
    let (text, rest) ← quoted? g.char (gs.drop 1)
    return (.scalar .quoted text, rest)
  if g.column == 0 && g.char = '%' then do
    let s ← s.betweenDocuments
    let (token, rest) ← directive? behind
    return { s.push token with rest }
  else if atDocumentMark s.rest then do
    let s ← s.betweenDocuments
    return s.take 3 (if g.char = '-' then .documentStart else .documentEnd)
  else match g.char with
    | '[' => s.openFlow .flowSequenceStart
    | '\x7b' => s.openFlow .flowMapStart
    | ']' => s.closeFlow .flowSequenceEnd
    | '\x7d' => s.closeFlow .flowMapEnd
    | ',' => s.comma
    | '*' => s.begin (named .reference)
    | '&' => s.begin (named .anchor)
    | '!' => s.begin (tag? s.inFlow)
    | '\x27' => s.begin quoted
    | '"' => s.begin quoted
    | c =>
      if c = '-' && standsAlone then s.item g.column
      else if c = '?' && (s.inFlow || standsAlone) then s.key g.column
      else if c = ':' && (s.inFlow || standsAlone) then s.value g.column
      else if c = '|' && !s.inFlow then s.blockScalar .literal
      else if c = '>' && !s.inFlow then s.blockScalar .folded
      else if c = '-' || ((c = '?' || c = ':') && !s.inFlow) || !(isMark c || isBlank c) then
        s.plainScalar
      else none

/-- All tokens of the rest of a text. -/
def run : (fuel : Nat) → Lexer → Option (Array Token)
  | 0, _ => none
  | fuel + 1, s => do
    let (allowsKey, rest) := skipGaps s.inFlow s.allowsKey false s.rest
    let s ← dropFarKeys { s with allowsKey, rest }
    match s.rest with
    | [] => return s.closeAll.tokens
    | g :: _ => run fuel (← (s.unroll g.column).token g)

end Lexer

/-- The tokens of a text. -/
def tokens? (text : String) : Option (List Token) := do
  let gs ← glyphs? text
  return (← Lexer.run (gs.length + 1) (Lexer.new gs)).toList

end Yaml
end RouteBook
