import RouteBook.Source.Grammar.Types
/-! # Patterns -/
namespace RouteBook
namespace Source
namespace Parser

/-- What may end a range: a literal, a path or a constant block.  Nothing at all is an end too,
where the pattern stops. -/
def rangeBound (g : Grammar) : Parser Bool := do
  let tokens ← rest
  if tokens.isEmpty || op "|" tokens || op "=" tokens || (op ":" tokens && !op "::" tokens)
      || op "," tokens || op ";" tokens || word "if" tokens then
    return false
  if literal tokens then
    let _ ← takeLiteral
    return true
  if ident tokens || op "::" tokens || op "<" tokens
      || ["self", "Self", "super", "crate"].any fun w => word w tokens then
    let _ ← qualifiedPath g (bound g) true
    return true
  if word "const" tokens then
    takeWord "const"
    g.block
    return true
  fail

/-- The sign of a range: whether the range includes its upper end. -/
def rangeSign : Parser Bool := do
  if ← optOp "..=" then return true
  if ← optOp "..." then return true
  takeOp ".."
  return false

/-- The sign of a range and its upper end, which an inclusive range must have. -/
def rangeEnd (g : Grammar) : Parser Bool := do
  let inclusive ← rangeSign
  let bounded ← rangeBound g
  if inclusive && !bounded then fail
  return bounded

/-- Patterns with bars between them. -/
def alternatives (g : Grammar) : Parser Pattern := do
  let bar : Look := fun tokens => op "|" tokens && !op "||" tokens && !op "|=" tokens
  let leading ← optOp "|"
  let first ← g.pattern
  let others ← manyWhile bar do
    takeOp "|"
    g.pattern
  return if leading || !others.isEmpty then .other else first

/-- A member of a structure: a name, or a number without a suffix. -/
def member : Parser (Option String) := do
  if ← sees ident then return some (← takeIdent)
  match ← rest with
  | .literal (.int false n "" _) :: tokens => do
    if Nat.pow 2 32 ≤ n then fail
    setRest tokens
    return none
  | _ => fail

/-- A field inside the braces of a structure pattern. -/
def fieldPattern (g : Grammar) : Parser Unit := do
  let boxed ← optWord "box"
  let byRef ← optWord "ref"
  let mutable_ ← optWord "mut"
  if boxed || byRef || mutable_ then
    let _ ← takeIdent
    return ()
  let name ← member
  if name.isNone || (← sees (op ":")) then
    takeOp ":"
    let _ ← alternatives g
  return ()

/-- The inside of a structure pattern; two dots end it. -/
def fieldPatterns (g : Grammar) : Nat → Parser Unit
  | 0 => fail
  | fuel + 1 => do
    if ← atEnd then return ()
    let _ ← outerAttributes g
    if ← sees (op "..") then
      takeOp ".."
      return ()
    fieldPattern g
    if ← atEnd then return ()
    takeOp ","
    fieldPatterns g fuel

/-- A pattern that begins with a path. -/
def pathPattern (g : Grammar) : Parser Pattern := do
  let (qualified, _, segments) ← qualifiedPath g (bound g) true
  let tokens ← rest
  if !qualified && op "!" tokens && !op "!=" tokens && segments.all Segment.isPlain then
    takeOp "!"
    let _ ← takeGroup
    return .other
  if group .brace tokens then
    inside .brace do fieldPatterns g ((← rest).length + 1)
    return .other
  if group .paren tokens then return .tupleStruct (← inside .paren (commaList (alternatives g)))
  if op ".." tokens then
    let bounded ← rangeEnd g
    return if bounded then .other else .openRange
  return .other

/-- A name, with what it may carry before and behind it. -/
def namePattern (g : Grammar) : Parser Pattern := do
  let _ ← optWord "ref"
  let _ ← optWord "mut"
  let name ← if ← sees (word "self") then takeAnyWord else takeIdent
  if ← optOp "@" then
    let _ ← g.pattern
  return .name name

/-- A single pattern, without bars. -/
def patternRule (g : Grammar) : Parser Pattern := do
  let tokens ← rest
  let behind := skip 1 tokens
  if (ident tokens && (op "::" behind || op "!" behind || group .brace behind
        || group .paren behind || op ".." behind))
      || (word "self" tokens && op "::" behind) || op "::" tokens || op "<" tokens
      || word "Self" tokens || word "super" tokens || word "crate" tokens then
    pathPattern g
  else if word "_" tokens then
    takeWord "_"
    return .other
  else if word "box" tokens then
    takeWord "box"
    let _ ← g.pattern
    return .other
  else if op "-" tokens || literal tokens || word "const" tokens then
    if !(← rangeBound g) then fail
    if ← sees (op "..") then
      let bounded ← rangeEnd g
      return if bounded then .other else .openRange
    return .other
  else if word "ref" tokens || word "mut" tokens || word "self" tokens || ident tokens then
    namePattern g
  else if op "&" tokens then
    takeOp "&"
    let _ ← optWord "mut"
    return .reference (← g.pattern)
  else if group .paren tokens then
    let _ ← inside .paren (commaList (alternatives g))
    return .other
  else if group .bracket tokens then
    let elements ← inside .bracket (commaList (alternatives g))
    let isOpen : Pattern → Bool
      | .openRange => true
      | _ => false
    if elements.any isOpen then fail
    return .other
  else if op ".." tokens && !op "..." tokens then
    let inclusive ← rangeSign
    let bounded ← rangeBound g
    if inclusive && !bounded then fail
    return if bounded then .openRange else .other
  else fail

end Parser
end Source
end RouteBook
