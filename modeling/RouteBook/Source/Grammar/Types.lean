import RouteBook.Source.Grammar.Basic
/-! # Paths, bounds and types -/
namespace RouteBook
namespace Source
namespace Parser

/-! ### Paths -/

/-- A constant argument: a literal, a name or a block. -/
def constArgument (g : Grammar) : Parser Unit := do
  let tokens ← rest
  if literal tokens then
    let _ ← takeLiteral
  else if ident tokens then
    let _ ← takeIdent
  else if group .brace tokens then
    inside .brace do
      let _ ← innerAttributes g
      g .statements
  else fail

/-- An argument in angle brackets, its type if it is one.  `bound` parses a bound. -/
def genericArgument (g : Grammar) (bound : Parser Bound) : Parser (Option TypeExpr) := do
  let tokens ← rest
  if lifetime tokens && !op "+" (skip 1 tokens) then
    takeLifetime
    return none
  if literal tokens || group .brace tokens then
    constArgument g
    return none
  let type ← g.type
  match type with
  | .path false [segment] =>
    if segment.isCalled then return some type
    if ← optOp "=" then
      let tokens ← rest
      if literal tokens || group .brace tokens then constArgument g
      else
        let _ ← g.type
      return none
    if ← optOp ":" then
      let stop : Look := fun tokens => op "," tokens || op ">" tokens
      let _ ← chain stop "+" bound
      return none
    return some type
  | _ => return some type

/-- Arguments in angle brackets. -/
def angleArguments (g : Grammar) (bound : Parser Bound) : Parser Arguments := do
  takeOp "<"
  let arguments ← separatedUntil (op ">") "," (genericArgument g bound)
  takeOp ">"
  return .angle (arguments.filterMap id)

/-- A segment of a path.  In an expression, arguments need `::` before them. -/
def segment (g : Grammar) (bound : Parser Bound) (inExpr : Bool) : Parser Segment := do
  match ← rest with
  | .ident w :: tokens => do
    setRest tokens
    if h : w.text ∈ pathKeywords then return .keyword w.text h
    if h : w.isName then
      if (!inExpr && op "<" tokens && !op "<=" tokens)
          || (op "::" tokens && op "<" (skip 2 tokens)) then
        let _ ← optOp "::"
        return .named w h (← angleArguments g bound)
      return .named w h .absent
    fail
  | _ => fail

/-- A path, as its leading `::` and its segments. -/
def path (g : Grammar) (bound : Parser Bound) (inExpr : Bool) :
    Parser (Bool × List Segment) := do
  let leadingColon ← optOp "::"
  let first ← segment g bound inExpr
  let others ← many do
    let tokens ← rest
    if op "::" tokens && !group .paren (skip 2 tokens) then
      takeOp "::"
      return some (← segment g bound inExpr)
    return none
  return (leadingColon, first :: others)

/-- A path that may begin with a type in angle brackets; whether it does is the first part. -/
def qualifiedPath (g : Grammar) (bound : Parser Bound) (inExpr : Bool) :
    Parser (Bool × Bool × List Segment) := do
  if ← sees (op "<") then
    takeOp "<"
    let _ ← g.type
    let (leadingColon, front) ←
      if ← optWord "as" then path g bound false else pure (true, [])
    takeOp ">"
    takeOp "::"
    let first ← segment g bound inExpr
    let others ← many do
      if ← optOp "::" then return some (← segment g bound inExpr)
      return none
    return (true, leadingColon, front ++ first :: others)
  let (leadingColon, segments) ← path g bound inExpr
  return (false, leadingColon, segments)

/-! ### Bounds -/

/-- The lifetimes that `for<…>` binds. -/
def boundLifetimes (g : Grammar) : Parser Unit := do
  takeWord "for"
  takeOp "<"
  let _ ← separatedUntil (op ">") "," do
    let _ ← outerAttributes g
    takeLifetime
    if ← optOp ":" then
      let stop : Look := fun tokens => op "," tokens || op ">" tokens
      let _ ← chain stop "+" takeLifetime
  takeOp ">"

def optBoundLifetimes (g : Grammar) : Parser Bool := do
  if ← sees (word "for") then
    boundLifetimes g
    return true
  return false

/-- What a function type gives back, if it says so. -/
def output (type : Parser TypeExpr) : Parser (Option TypeExpr) := do
  if ← optOp "->" then return some (← type)
  return none

/-- A trait in a bound; function traits have their parameters in parentheses. -/
def traitBound (g : Grammar) (bound : Parser Bound) : Parser Bound := do
  let bound? ← optBoundLifetimes g
  let conditional ← optOp "~"
  if conditional then takeWord "const"
  let relaxed ← optOp "?"
  if relaxed && !bound? then
    let _ ← optBoundLifetimes g
  let (_, segments) ← path g bound false
  let tokens ← rest
  let lastPlain := (segments.getLast?.map Segment.isPlain).getD false
  if lastPlain && (group .paren tokens || (op "::" tokens && group .paren (skip 2 tokens))) then
    let _ ← optOp "::"
    let _ ← inside .paren (commaList g.type)
    let _ ← output g.typeNoPlus
  return if conditional then .unread else .trait segments

/-- What a `use<…>` bound may hold. -/
def captureArgument : Parser Unit := do
  if ← sees lifetime then takeLifetime
  else
    let _ ← takeAnyWord

/-- A single bound. -/
def boundAt (g : Grammar) : Nat → Parser Bound
  | 0 => fail
  | fuel + 1 => do
    let tokens ← rest
    if lifetime tokens then
      takeLifetime
      return .lifetime
    if word "use" tokens then
      takeWord "use"
      takeOp "<"
      let _ ← separatedUntil (op ">") "," captureArgument
      takeOp ">"
      return .unread
    if group .paren tokens then return (← inside .paren (traitBound g (boundAt g fuel)))
    traitBound g (boundAt g fuel)

/-- A single bound, at most as deep as there are tokens. -/
def bound (g : Grammar) : Parser Bound := do
  boundAt g ((← rest).length + 1)

/-- Further bounds behind plus signs.  A plus sign that no bound follows ends the list. -/
def boundTail (g : Grammar) (begins : Look) : Nat → Parser (List Bound)
  | 0 => fail
  | fuel + 1 => do
    if !(← optOp "+") then return []
    if !(← sees begins) then return []
    return (← bound g) :: (← boundTail g begins fuel)

/-- `boundTail` with as many steps as there are tokens. -/
def moreBounds (g : Grammar) (begins : Look) : Parser (List Bound) := do
  boundTail g begins ((← rest).length + 1)

/-- What a bound may begin with behind a plus sign. -/
def beginsBound : Look := fun tokens =>
  anyWord tokens || op "::" tokens || op "?" tokens || lifetime tokens || group .paren tokens

/-- One bound, or several with plus signs between them. -/
def bounds (g : Grammar) (plus : Bool) : Parser (List Bound) := do
  let first ← bound g
  if plus then
    return first :: (← moreBounds g fun tokens => beginsBound tokens || op "~" tokens)
  return [first]

/-- Whether a bound names a trait. -/
def namesTrait : Bound → Bool
  | .trait _ => true
  | .unread => true
  | .lifetime => false

/-- The bounds of `impl` or `dyn`, one of which must be a trait. -/
def traitBounds (g : Grammar) (plus : Bool) : Parser TypeExpr := do
  let bs ← bounds g plus
  if bs.any namesTrait then return .bounded bs else fail

/-! ### Types -/

/-- The name of a parameter of a function type, if it has one, and its type.  Only the first
parameter may be called `self`. -/
def functionTypeParam (g : Grammar) (isFirst : Bool) : Parser Unit := do
  let _ ← if isFirst && (← sees (word "mut")) && (← seesBehind 1 (word "self")) then optWord "mut"
    else pure false
  let tokens ← rest
  let named := (ident tokens || word "_" tokens || (isFirst && word "self" tokens))
    && op ":" (skip 1 tokens) && !op "::" (skip 1 tokens)
  if named then
    let _ ← takeAnyWord
    takeOp ":"
  let _ ← g.type

/-- The parameters of a function type up to the end.  Three dots, perhaps with a name, stand for
any further arguments, and nothing but a comma may follow them. -/
def functionTypeParams (g : Grammar) : Nat → Bool → Parser Unit
  | 0, _ => fail
  | fuel + 1, isFirst => do
    if ← atEnd then return ()
    let _ ← outerAttributes g
    let tokens ← rest
    let named := (ident tokens || word "_" tokens) && op ":" (skip 1 tokens)
      && op "..." (skip 2 tokens)
    if named || op "..." tokens then
      if named then
        let _ ← takeAnyWord
        takeOp ":"
      takeOp "..."
      let _ ← optOp ","
      return ()
    functionTypeParam g isFirst
    if ← atEnd then return ()
    takeOp ","
    functionTypeParams g fuel false

/-- An optional calling convention. -/
def optAbi : Parser Unit := do
  if ← optWord "extern" then
    match ← rest with
    | .literal (.text _) :: tokens => setRest tokens
    | _ => return ()

/-- A function type. -/
def functionType (g : Grammar) : Parser TypeExpr := do
  let _ ← optWord "unsafe"
  optAbi
  takeWord "fn"
  inside .paren do functionTypeParams g ((← rest).length + 1) true
  let _ ← output g.typeNoPlus
  return .function

/-- Further bounds, each behind a plus sign. -/
def plusBounds (g : Grammar) : Parser (List Bound) :=
  manyWhile (op "+") do
    takeOp "+"
    bound g

/-- A type in parentheses, a tuple, or a bound in parentheses that others follow. -/
def parenType (g : Grammar) (plus : Bool) : Parser TypeExpr := do
  let inner : Parser (TypeExpr × Bool) := inside .paren do
    if ← atEnd then return (.tuple [], false)
    if ← sees lifetime then return (.grouped (← traitBounds g true), false)
    if ← sees (op "?") then return (.bounded [← bound g], true)
    let first ← g.type
    if ← optOp "," then
      let others ← commaList g.type
      return (.tuple (first :: others), false)
    return (.grouped first, false)
  let (type, relaxed) ← inner
  match type with
  | .bounded bs =>
    if relaxed then return .bounded (bs ++ (← plusBounds g)) else return type
  | .grouped (.path leadingColon segments) =>
    if plus && (← sees (op "+")) then
      return .bounded (.trait segments :: (← plusBounds g))
    return .grouped (.path leadingColon segments)
  | .grouped (.bounded [b]) =>
    if plus && (← sees (op "+")) then return .bounded (b :: (← plusBounds g))
    return .grouped (.bounded [b])
  | type => return type

/-- A path type, a macro call, or bounds that begin with a path. -/
def pathType (g : Grammar) (plus bound? : Bool) : Parser TypeExpr := do
  let (qualified, leadingColon, segments) ← qualifiedPath g (bound g) false
  if qualified then return .path leadingColon segments
  let tokens ← rest
  if op "!" tokens && !op "!=" tokens && segments.all Segment.isPlain then
    takeOp "!"
    let _ ← takeGroup
    return .macroCall
  if bound? || (plus && op "+" tokens) then
    let others ← if plus then moreBounds g beginsBound else pure []
    return .bounded (.trait segments :: others)
  return .path leadingColon segments

/-- A type. -/
def typeRule (g : Grammar) (plus : Bool) : Parser TypeExpr := do
  let bound? ← optBoundLifetimes g
  let tokens ← rest
  let isPath := ident tokens || ["super", "self", "Self", "crate"].any fun w => word w tokens
  let isFunction := ["fn", "unsafe", "extern"].any fun w => word w tokens
  if bound? && !isPath && !isFunction then fail
  if group .paren tokens then parenType g plus
  else if isFunction then functionType g
  else if isPath || op "::" tokens || op "<" tokens then pathType g plus bound?
  else if word "dyn" tokens then
    takeWord "dyn"
    if ← optOp "*" then
      let _ ← traitBounds g plus
      return .unread
    traitBounds g plus
  else if group .bracket tokens then
    inside .bracket do
      let element ← g.type
      if ← optOp ";" then
        let _ ← g.expr
        return .array element
      return .slice element
  else if op "*" tokens then
    takeOp "*"
    if !(← optWord "const") then takeWord "mut"
    return .pointer (← g.typeNoPlus)
  else if op "&" tokens then
    takeOp "&"
    let _ ← optLifetime
    let _ ← optWord "mut"
    return .reference (← g.typeNoPlus)
  else if op "!" tokens && !op "!=" tokens then
    takeOp "!"
    return .never
  else if word "impl" tokens then
    takeWord "impl"
    traitBounds g plus
  else if word "_" tokens then
    takeWord "_"
    return .inferred
  else if lifetime tokens then traitBounds g plus
  else fail

end Parser
end Source
end RouteBook
