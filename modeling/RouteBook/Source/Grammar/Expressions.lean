import RouteBook.Source.Grammar.Patterns
/-! # Expressions

An expression is read as an operand with trailers behind it, and operands are joined by binary
operators according to how tightly those bind (`climb`).
-/
namespace RouteBook
namespace Source
namespace Parser

/-! ### Binary operators -/

/-- How tightly operators bind, the loosest first. -/
inductive Binding where
  | none
  | assign
  | range
  | or
  | and
  | condition
  | compare
  | bitOr
  | bitXor
  | bitAnd
  | shift
  | sum
  | product
  | cast
  deriving DecidableEq

namespace Binding

/-- The place in the order. -/
def rank (b : Binding) : Nat := b.ctorIdx

end Binding

/-- The binary operators.  An operator stands before those that it begins with. -/
def binaryOps : List (String × Binding) :=
  [("+=", .assign), ("-=", .assign), ("*=", .assign), ("/=", .assign), ("%=", .assign),
    ("^=", .assign), ("&=", .assign), ("|=", .assign), ("<<=", .assign), (">>=", .assign),
    ("&&", .and), ("||", .or), ("<<", .shift), (">>", .shift),
    ("==", .compare), ("<=", .compare), ("!=", .compare), (">=", .compare),
    ("+", .sum), ("-", .sum), ("*", .product), ("/", .product), ("%", .product),
    ("^", .bitXor), ("&", .bitAnd), ("|", .bitOr), ("<", .compare), (">", .compare)]

/-- The binary operator that the tokens begin with. -/
def binaryOp? (tokens : List Token) : Option (String × Binding) :=
  binaryOps.find? fun (w, _) => op w tokens

/-- How tightly the operator binds that the tokens begin with. -/
def bindingAhead (tokens : List Token) : Binding :=
  match binaryOp? tokens with
  | some (_, binding) => binding
  | none =>
    if op "=" tokens && !op "=>" tokens then .assign
    else if op ".." tokens then .range
    else if word "as" tokens then .cast
    else .none

/-- A single dot. -/
def dot : Look := fun tokens => op "." tokens && !op ".." tokens

/-- Whether a range without an upper end may stop here. -/
def endsRange (structs : Bool) : Look := fun tokens =>
  tokens.isEmpty || dot tokens || word "as" tokens || (!structs && group .brace tokens)
    || [",", ";", "?", "=>", "=", "+", "/", "%", "^", ">", "<=", "!=", "-=", "*=", "&=", "|=",
      "<<="].any fun w => op w tokens

/-- The sign of a range in an expression: whether the range includes its upper end. -/
def rangeLimits : Parser Bool := do
  if ← optOp "..=" then return true
  if ← sees (op "...") then fail
  takeOp ".."
  return false

/-- Whether an expression is a comparison. -/
def isComparison : Expr → Bool
  | .binary w _ _ => ["==", "<=", "!=", ">=", "<", ">"].contains w
  | _ => false

/-- Whether an expression is a range; nothing may follow one but what stands around it. -/
def isRange : Expr → Bool
  | .range _ => true
  | _ => false

mutual
/-- Joins what follows to an expression, as long as the operators bind at least as tightly as
asked. -/
def climbSteps (g : Grammar) (structs : Bool) : Nat → Expr → Binding → Parser Expr
  | 0, _, _ => fail
  | fuel + 1, left, base => do
    let tokens ← rest
    if isRange left then return left
    match binaryOp? tokens with
    | some (w, binding) =>
      if binding.rank < base.rank then return left
      if binding = .compare && isComparison left then fail
      takeOp w
      let right ← operandSteps g structs fuel binding
      climbSteps g structs fuel (.binary w left right) base
    | none =>
      if base.rank ≤ Binding.assign.rank && op "=" tokens && !op "=>" tokens then
        takeOp "="
        let right ← operandSteps g structs fuel .assign
        climbSteps g structs fuel (.assign left right) base
      else if base.rank ≤ Binding.range.rank && op ".." tokens then
        let inclusive ← rangeLimits
        if !inclusive && (← sees (endsRange structs)) then return .range none
        return .range (some (← operandSteps g structs fuel .range))
      else if base.rank ≤ Binding.cast.rank && word "as" tokens then
        takeWord "as"
        let _ ← g.typeNoPlus
        let behind ← rest
        if dot behind || op "?" behind || group .bracket behind || group .paren behind then fail
        climbSteps g structs fuel .other base
      else return left

/-- The right operand of an operator, with all that binds more tightly. -/
def operandSteps (g : Grammar) (structs : Bool) : Nat → Binding → Parser Expr
  | 0, _ => fail
  | fuel + 1, binding => do
    let right ← g (.unary structs)
    tightenSteps g structs fuel binding right

/-- Joins to an operand what binds more tightly than the operator before it. -/
def tightenSteps (g : Grammar) (structs : Bool) : Nat → Binding → Expr → Parser Expr
  | 0, _, _ => fail
  | fuel + 1, binding, right => do
    let tokens ← rest
    let next := bindingAhead tokens
    if binding.rank < next.rank || (next = binding && binding = .assign) then
      let joined ← climbSteps g structs fuel right next
      if (← rest).length = tokens.length then return joined
      tightenSteps g structs fuel binding joined
    else return right
end

/-- Joins what follows to an expression; there are no more steps than twice the tokens. -/
def climb (g : Grammar) (structs : Bool) (left : Expr) (base : Binding) : Parser Expr := do
  climbSteps g structs (3 * (← rest).length + 3) left base

/-- The right operand of an operator. -/
def operand (g : Grammar) (structs : Bool) (binding : Binding) : Parser Expr := do
  operandSteps g structs (3 * (← rest).length + 3) binding

/-- An expression. -/
def exprRule (g : Grammar) (structs : Bool) : Parser Expr := do
  climb g structs (← g (.unary structs)) .none

/-- A range without a lower end. -/
def rangeExpr (g : Grammar) (structs : Bool) : Parser Expr := do
  let inclusive ← rangeLimits
  if !inclusive && (← sees (endsRange structs)) then return .range none
  return .range (some (← operand g structs .range))

/-! ### Trailers -/

/-- The numbers of the fields in something like `0.1`, and whether a dot ends it. -/
def fieldNumbers? (written : String) : Option Bool :=
  let isNumber (part : String) : Bool :=
    let digits := part.toList.filter (· ≠ '_')
    (part.toList.head?.map Char.isDigit).getD false && digits.all Char.isDigit
      && digits.foldl (fun n d => 10 * n + (d.toNat - '0'.toNat)) 0 < Nat.pow 2 32
  let trailing := written.endsWith "."
  let parts := (if trailing then (written.dropEnd 1).toString else written).splitOn "."
  if parts.all isNumber then some trailing else none

/-- What follows a dot: a field, `await`, or a method call. -/
def dotTrailer (g : Grammar) : Parser Expr := do
  takeOp "."
  let numbers : Option Bool ← match ← rest with
    | .literal (.float false _ _ written) :: tokens =>
      match fieldNumbers? written with
      | some trailing => do
        setRest tokens
        pure (some trailing)
      | none => fail
    | _ => pure none
  if numbers = some false then return .other
  if ← optWord "await" then return .other
  let name ← member
  let turbofish ← if name.isSome && (← sees (op "::")) then do
      takeOp "::"
      let _ ← angleArguments g (bound g)
      pure true
    else pure false
  if name.isSome && (turbofish || (← sees (group .paren))) then
    let _ ← inside .paren (commaList g.expr)
    return .methodCall
  return .other

/-- Calls, fields, indices and question marks behind an expression. -/
def trailerSteps (g : Grammar) : Nat → Expr → Parser Expr
  | 0, _ => fail
  | fuel + 1, e => do
    let tokens ← rest
    if group .paren tokens then
      let _ ← inside .paren (commaList g.expr)
      trailerSteps g fuel .call
    else if dot tokens && !isRange e then trailerSteps g fuel (← dotTrailer g)
    else if group .bracket tokens then
      let _ ← inside .bracket g.expr
      trailerSteps g fuel .other
    else if op "?" tokens && !isRange e then
      takeOp "?"
      trailerSteps g fuel .other
    else return e

/-- `trailerSteps` with as many steps as there are tokens. -/
def trailers (g : Grammar) (e : Expr) : Parser Expr := do
  trailerSteps g ((← rest).length + 1) e

/-! ### Operands -/

/-- Statements in braces, with attributes in front of them. -/
def attributedBlock (g : Grammar) : Parser Unit :=
  inside .brace do
    let _ ← innerAttributes g
    g .statements

/-- The fields of a structure literal; two dots end it. -/
def fieldValues (g : Grammar) : Nat → Parser Unit
  | 0 => fail
  | fuel + 1 => do
    if ← atEnd then return ()
    if ← optOp ".." then
      if !(← atEnd) then
        let _ ← g.expr
      return ()
    let _ ← outerAttributes g
    let name ← member
    if name.isNone || (← sees (op ":")) then
      takeOp ":"
      let _ ← g.expr
    if ← atEnd then return ()
    takeOp ","
    fieldValues g fuel

/-- A path, a macro call or a structure literal. -/
def pathExpr (g : Grammar) (structs : Bool) : Parser Expr := do
  let (qualified, leadingColon, segments) ← qualifiedPath g (bound g) true
  let tokens ← rest
  if !qualified && op "!" tokens && !op "!=" tokens && segments.all Segment.isPlain then
    takeOp "!"
    let (delimiter, _) ← takeGroup
    return .macroCall delimiter
  if structs && group .brace tokens then
    inside .brace do fieldValues g ((← rest).length + 1)
    return .braced
  return .path leadingColon segments

/-- An expression in parentheses, or a tuple. -/
def parenExpr (g : Grammar) : Parser Expr :=
  inside .paren do
    if ← atEnd then return .other
    let first ← g.expr
    if ← atEnd then return .grouped first
    takeOp ","
    let _ ← commaList g.expr
    return .other

/-- An array, or a value and how often it is repeated. -/
def bracketExpr (g : Grammar) : Parser Expr :=
  inside .bracket do
    if ← atEnd then return .array []
    let first ← g.expr
    if ← optOp ";" then
      let _ ← g.expr
      return .other
    if ← atEnd then return .array [first]
    takeOp ","
    return .array (first :: (← commaList g.expr))

/-- Whether the tokens may begin an expression. -/
def beginsExpr : Look := fun tokens =>
  (anyWord tokens && !word "as" tokens) || group .paren tokens || group .bracket tokens
    || group .brace tokens || literal tokens
    || (op "!" tokens && !op "!=" tokens)
    || (op "-" tokens && !op "-=" tokens && !op "->" tokens)
    || (op "*" tokens && !op "*=" tokens)
    || (op "|" tokens && !op "|=" tokens)
    || (op "&" tokens && !op "&=" tokens)
    || op ".." tokens
    || (op "<" tokens && !op "<=" tokens && !op "<<=" tokens)
    || op "::" tokens || lifetime tokens || op "#" tokens

/-- An expression that may be left out. -/
def optExpr (g : Grammar) : Parser Expr := do
  if ← sees beginsExpr then return .leading (← g.expr)
  return .other

/-- `break` with a label and a value, each of which may be left out. -/
def breakExpr (g : Grammar) (structs : Bool) : Parser Expr := do
  takeWord "break"
  let labelled ← optLifetime
  let tokens ← rest
  if labelled && op ":" tokens then fail
  if !structs && group .brace tokens then return .other
  optExpr g

/-- A parameter of a closure. -/
def closureParam (g : Grammar) : Parser Unit := do
  let _ ← outerAttributes g
  let _ ← g.pattern
  if ← optOp ":" then
    let _ ← g.type

/-- The parameters of a closure, up to the closing bar. -/
def closureParams (g : Grammar) : Nat → Parser Unit
  | 0 => fail
  | fuel + 1 => do
    if ← optOp "|" then return ()
    closureParam g
    if ← optOp "|" then return ()
    takeOp ","
    closureParams g fuel

def closureExpr (g : Grammar) (structs : Bool) : Parser Expr := do
  let _ ← optBoundLifetimes g
  let _ ← optWord "const"
  let _ ← optWord "static"
  let _ ← optWord "async"
  let _ ← optWord "move"
  takeOp "|"
  closureParams g ((← rest).length + 1)
  if ← optOp "->" then
    let _ ← g.type
    g.block
    return .braced
  return .leading (← g (.expr structs))

/-- The condition and the branches of an `if`. -/
def ifBranches (g : Grammar) : Nat → Parser Unit
  | 0 => fail
  | fuel + 1 => do
    takeWord "if"
    let _ ← g.exprNoBrace
    g.block
    if ← optWord "else" then
      if ← sees (word "if") then ifBranches g fuel
      else g.block

def ifExpr (g : Grammar) : Parser Expr := do
  ifBranches g ((← rest).length + 1)
  return .block

def whileExpr (g : Grammar) : Parser Expr := do
  takeWord "while"
  let _ ← g.exprNoBrace
  attributedBlock g
  return .block

def forExpr (g : Grammar) : Parser Expr := do
  takeWord "for"
  let _ ← alternatives g
  takeWord "in"
  let _ ← g.exprNoBrace
  attributedBlock g
  return .block

/-- A keyword and a block. -/
def wordBlockExpr (g : Grammar) (w : String) : Parser Expr := do
  takeWord w
  attributedBlock g
  return .block

def blockExpr (g : Grammar) : Parser Expr := do
  attributedBlock g
  return .block

def tryExpr (g : Grammar) : Parser Expr := do
  takeWord "try"
  g.block
  return .block

/-- What may stand behind a label. -/
def labelledExpr (g : Grammar) : Parser Expr := do
  takeLifetime
  takeOp ":"
  let tokens ← rest
  if word "while" tokens then whileExpr g
  else if word "for" tokens then forExpr g
  else if word "loop" tokens then wordBlockExpr g "loop"
  else blockExpr g

/-- Whether `for` begins a closure that binds lifetimes. -/
def bindsLifetimes : Look := fun tokens =>
  let behind := skip 2 tokens
  word "for" tokens && op "<" (skip 1 tokens) && (lifetime behind || op ">" behind)

/-- An arm of a `match`.  Only an arm that ends with a block may do without a comma. -/
def matchArm (g : Grammar) : Parser Unit := do
  let _ ← outerAttributes g
  let _ ← alternatives g
  if ← optWord "if" then
    let _ ← g.expr
  takeOp "=>"
  let body ← g .standing
  if body.needsComma && !(← atEnd) then takeOp ","
  else
    let _ ← optOp ","

def matchExpr (g : Grammar) : Parser Expr := do
  takeWord "match"
  let _ ← g.exprNoBrace
  inside .brace do
    let _ ← innerAttributes g
    let _ ← manyToEnd (matchArm g)
  return .block

/-- An expression that stands where a statement may: a construct that ends with a block ends
the expression, unless a dot or a question mark follows. -/
def standingRule (g : Grammar) : Parser Expr := do
  let _ ← outerAttributes g
  let tokens ← rest
  let braceBehind := group .brace (skip 1 tokens)
  let construct : Option (Parser Expr) :=
    if word "if" tokens then some (ifExpr g)
    else if word "while" tokens then some (whileExpr g)
    else if word "for" tokens && !bindsLifetimes tokens then some (forExpr g)
    else if word "loop" tokens then some (wordBlockExpr g "loop")
    else if word "match" tokens then some (matchExpr g)
    else if word "try" tokens && braceBehind then some (tryExpr g)
    else if word "unsafe" tokens then some (wordBlockExpr g "unsafe")
    else if word "const" tokens && braceBehind then some (wordBlockExpr g "const")
    else if group .brace tokens then some (blockExpr g)
    else if lifetime tokens then some (labelledExpr g)
    else none
  match construct with
  | none => climb g true (← g (.unary true)) .none
  | some p =>
    let e ← p
    let behind ← rest
    if dot behind || op "?" behind then climb g true (← trailers g e) .none
    else return e

/-- An operand without its trailers. -/
def atom (g : Grammar) (structs : Bool) : Parser Expr := do
  let tokens ← rest
  let behind := skip 1 tokens
  let braceBehind := group .brace behind
  let isPath := ident tokens || op "::" tokens || op "<" tokens
    || ["self", "Self", "super", "crate"].any fun w => word w tokens
  let isClosure := op "|" tokens || word "move" tokens || bindsLifetimes tokens
    || (word "const" tokens && !braceBehind) || word "static" tokens
    || (word "async" tokens && (op "|" behind || word "move" behind))
  if literal tokens then return .literal (← takeLiteral)
  else if word "async" tokens
      && (braceBehind || (word "move" behind && group .brace (skip 2 tokens))) then
    takeWord "async"
    let _ ← optWord "move"
    g.block
    return .braced
  else if word "try" tokens && braceBehind then tryExpr g
  else if isClosure then closureExpr g structs
  else if word "builtin" tokens && op "#" behind then
    takeWord "builtin"
    takeOp "#"
    let _ ← takeAnyWord
    let (delimiter, _) ← takeGroup
    if delimiter ≠ .paren then fail
    return .other
  else if isPath || (word "try" tokens && (op "!" behind || op "::" behind)) then
    pathExpr g structs
  else if group .paren tokens then parenExpr g
  else if word "break" tokens then breakExpr g structs
  else if word "continue" tokens then
    takeWord "continue"
    let _ ← optLifetime
    return .other
  else if word "return" tokens then
    takeWord "return"
    optExpr g
  else if word "become" tokens then
    takeWord "become"
    return .leading (← g.expr)
  else if group .bracket tokens then bracketExpr g
  else if word "let" tokens then
    takeWord "let"
    let _ ← alternatives g
    takeOp "="
    let scrutinee ← g (.unary structs)
    return .leading (← climb g structs scrutinee .compare)
  else if word "if" tokens then ifExpr g
  else if word "while" tokens then whileExpr g
  else if word "for" tokens then forExpr g
  else if word "loop" tokens then wordBlockExpr g "loop"
  else if word "match" tokens then matchExpr g
  else if word "yield" tokens then
    takeWord "yield"
    optExpr g
  else if word "unsafe" tokens then wordBlockExpr g "unsafe"
  else if word "const" tokens then wordBlockExpr g "const"
  else if group .brace tokens then blockExpr g
  else if op ".." tokens then rangeExpr g structs
  else if word "_" tokens then
    takeWord "_"
    return .other
  else if lifetime tokens then labelledExpr g
  else fail

/-- An operand: prefix operators, an atom, and its trailers. -/
def unaryRule (g : Grammar) (structs : Bool) : Parser Expr := do
  let attributes ← outerAttributes g
  let tokens ← rest
  if op "&" tokens then
    takeOp "&"
    let behind ← rest
    let raw := word "raw" behind
      && (word "mut" (skip 1 behind) || word "const" (skip 1 behind))
    if raw then takeWord "raw"
    let mutable_ ← optWord "mut"
    if raw && !mutable_ then takeWord "const"
    return .leading (← g (.unary structs))
  match tokens with
  | .punct c _ :: _ =>
    if c = '*' || c = '!' || c = '-' then
      takeOp c.toString
      return .unary c (← g (.unary structs))
    let e ← trailers g (← atom g structs)
    if !attributes.isEmpty && isRange e then fail
    return e
  | _ => trailers g (← atom g structs)

end Parser
end Source
end RouteBook
