import RouteBook.Source.Tree
/-! # Parsers over token trees

A parser consumes tokens and notes the items that it comes across on its way, or fails.
Looking ahead never consumes anything.  Operators are compared character by character, and all
but the last character of one must be followed at once by the next.
-/
namespace RouteBook
namespace Source

/-- The tokens that are left, and the items met so far, the last one first. -/
structure ParseState where
  tokens : List Token
  nested : List Item

abbrev Parser := StateT ParseState Option

namespace Parser

variable {α β : Type}

/-- The parser that always fails. -/
def fail : Parser α := fun _ => none

/-- The tokens that are left. -/
def rest : Parser (List Token) := fun s => some (s.tokens, s)

def setRest (tokens : List Token) : Parser Unit := fun s => some ((), { s with tokens })

/-- Whether all tokens have been consumed. -/
def atEnd : Parser Bool := return (← rest).isEmpty

/-- Notes an item. -/
def note (item : Item) : Parser Unit := fun s => some ((), { s with nested := item :: s.nested })

/-- Runs a parser and hands out the items that it notes, in the order of the text. -/
def collecting (p : Parser α) : Parser (α × List Item) := fun s =>
  (p ⟨s.tokens, []⟩).map fun (a, t) => ((a, t.nested.reverse), ⟨t.tokens, s.nested⟩)

/-- Runs a parser on a list of tokens of its own, all of which it must consume. -/
def onTokens (tokens : List Token) (p : Parser α) : Parser α := fun s =>
  match p ⟨tokens, s.nested⟩ with
  | some (a, ⟨[], nested⟩) => some (a, ⟨s.tokens, nested⟩)
  | _ => none

/-- Runs a parser if that succeeds, and consumes nothing otherwise. -/
def attempt (p : Parser α) : Parser (Option α) := fun s =>
  match p s with
  | some (a, t) => some (some a, t)
  | none => some (none, s)

/-! ### Looking ahead -/

/-- The tokens behind the first one.  A lifetime counts as one token. -/
def skipOne : List Token → List Token
  | .punct '\x27' true :: .ident _ :: tokens => tokens
  | _ :: tokens => tokens
  | [] => []

/-- The tokens behind the first `n`. -/
def skip : Nat → List Token → List Token
  | 0, tokens => tokens
  | n + 1, tokens => skip n (skipOne tokens)

/-- Whether the tokens begin with the characters of an operator. -/
def beginsWith : List Char → List Token → Bool
  | [], _ => true
  | [c], .punct d _ :: _ => c = d
  | c :: cs, .punct d joint :: tokens => c = d && joint && beginsWith cs tokens
  | _, _ => false

/-- A test on the tokens ahead. -/
abbrev Look := List Token → Bool

/-- An operator. -/
def op (word : String) : Look := beginsWith word.toList

/-- A keyword, or an identifier that is one in some places only. -/
def word (w : String) : Look
  | .ident v :: _ => v.text = w
  | _ => false

/-- An identifier that is no keyword. -/
def ident : Look
  | .ident w :: _ => !isKeyword w.text
  | _ => false

/-- An identifier or a keyword. -/
def anyWord : Look
  | .ident _ :: _ => true
  | _ => false

def lifetime : Look
  | .punct '\x27' true :: .ident _ :: _ => true
  | _ => false

/-- A group in the given brackets. -/
def group (d : Delimiter) : Look
  | .group e _ :: _ => d = e
  | _ => false

/-- A literal with its sign turned round, if it is a number. -/
def negated? : Literal → Option Literal
  | .int negative n suffix written => some (.int (!negative) n suffix ("-" ++ written))
  | .float negative digits e written => some (.float (!negative) digits e ("-" ++ written))
  | _ => none

/-- The literal that the tokens begin with: `true`, `false`, or a number behind a minus sign
are literals too. -/
def literal? : List Token → Option (Literal × List Token)
  | .literal l :: tokens => some (l, tokens)
  | .ident w :: tokens =>
    if w.text = "true" then some (.bool true, tokens)
    else if w.text = "false" then some (.bool false, tokens)
    else none
  | .punct '-' _ :: .literal l :: tokens => (negated? l).map fun l => (l, tokens)
  | _ => none

def literal : Look := fun tokens => (literal? tokens).isSome

/-- Applies a test to the tokens that are left. -/
def sees (look : Look) : Parser Bool := return look (← rest)

/-- Applies a test behind the first `n` tokens. -/
def seesBehind (n : Nat) (look : Look) : Parser Bool := return look (skip n (← rest))

/-! ### Consuming -/

/-- Consumes an operator. -/
def takeOp (w : String) : Parser Unit := do
  let tokens ← rest
  if op w tokens then setRest (tokens.drop w.length) else fail

/-- Consumes an operator if it stands there. -/
def optOp (w : String) : Parser Bool := do
  if ← sees (op w) then
    takeOp w
    return true
  return false

/-- Consumes a keyword. -/
def takeWord (w : String) : Parser Unit := do
  let tokens ← rest
  if word w tokens then setRest (tokens.drop 1) else fail

/-- Consumes a keyword if it stands there. -/
def optWord (w : String) : Parser Bool := do
  if ← sees (word w) then
    takeWord w
    return true
  return false

/-- Consumes an identifier or a keyword. -/
def takeAnyWord : Parser String := do
  match ← rest with
  | .ident w :: tokens => do
    setRest tokens
    return w.text
  | _ => fail

/-- Consumes an identifier that is no keyword. -/
def takeIdent : Parser String := do
  if ← sees ident then takeAnyWord else fail

def takeLifetime : Parser Unit := do
  let tokens ← rest
  if lifetime tokens then setRest (tokens.drop 2) else fail

def optLifetime : Parser Bool := do
  if ← sees lifetime then
    takeLifetime
    return true
  return false

def takeLiteral : Parser Literal := do
  match literal? (← rest) with
  | some (l, tokens) => do
    setRest tokens
    return l
  | none => fail

/-- Consumes a string literal. -/
def takeText : Parser String := do
  match ← takeLiteral with
  | .text s => return s
  | _ => fail

/-- Consumes a group in the given brackets, and runs a parser on all that is inside. -/
def inside (d : Delimiter) (p : Parser α) : Parser α := do
  match ← rest with
  | .group e content :: tokens => do
    if d ≠ e then fail
    setRest tokens
    onTokens content p
  | _ => fail

/-- Consumes a group in any brackets without looking inside. -/
def takeGroup : Parser (Delimiter × List Token) := do
  match ← rest with
  | .group d content :: tokens => do
    setRest tokens
    return (d, content)
  | _ => fail

/-! ### Repetition -/

/-- Repeats a step until it gives nothing.  Each step but the last has to consume a token, so
there are no more steps than tokens. -/
def steps (step : Parser (Option α)) : Nat → Parser (List α)
  | 0 => fail
  | fuel + 1 => do
    match ← step with
    | none => return []
    | some a => return a :: (← steps step fuel)

/-- Repeats a step until it gives nothing. -/
def many (step : Parser (Option α)) : Parser (List α) := do
  steps step ((← rest).length + 1)

/-- Elements as long as a test holds. -/
def manyWhile (look : Look) (p : Parser α) : Parser (List α) :=
  many do
    if ← sees look then return some (← p)
    return none

/-- Elements up to the end of the tokens. -/
def manyToEnd (p : Parser α) : Parser (List α) :=
  many do
    if ← atEnd then return none
    return some (← p)

/-- An element and the separator behind it, up to where a test holds.  Behind the last element a
separator may stand. -/
def separatedStep (stop : Look) (separator : String) (p : Parser α) : Parser (Option α) := do
  if ← sees stop then return none
  let a ← p
  if !(← sees stop) then takeOp separator
  return some a

/-- Elements with a separator between any two of them, up to where a test holds. -/
def separatedUntil (stop : Look) (separator : String) (p : Parser α) : Parser (List α) :=
  many (separatedStep stop separator p)

/-- Elements separated by commas up to the end of the tokens. -/
def commaList (p : Parser α) : Parser (List α) := separatedUntil List.isEmpty "," p

/-- Elements with a separator between any two of them; the list ends where a test holds or no
separator follows. -/
def chainSteps (stop : Look) (separator : String) (p : Parser α) : Nat → Parser (List α)
  | 0 => fail
  | fuel + 1 => do
    if ← sees stop then return []
    let a ← p
    if ← optOp separator then return a :: (← chainSteps stop separator p fuel)
    return [a]

/-- `chainSteps` with as many steps as there are tokens. -/
def chain (stop : Look) (separator : String) (p : Parser α) : Parser (List α) := do
  chainSteps stop separator p ((← rest).length + 1)

end Parser
end Source
end RouteBook
