import RouteBook.Source.Grammar.Expressions
/-! # Statements and items

An item is noted together with the items declared inside it.  A form that the language knows
but gives no meaning to, such as a constant without a value, is consumed and leaves no trace.
-/
namespace RouteBook
namespace Source
namespace Parser

variable {α : Type}

/-- Runs a parser and forgets the items that it notes. -/
def unnoted (p : Parser α) : Parser α := do
  let (a, _) ← collecting p
  return a

/-- Notes all of the given items. -/
def noteAll (items : List Item) : Parser Unit := items.forM note

/-! ### Parts of items -/

/-- A visibility; whether one is written. -/
def visibility : Parser Bool := do
  if !(← optWord "pub") then return false
  match ← rest with
  | .group .paren content :: tokens =>
    let restricted := match content with
      | [.ident w] => w.text = "crate" || w.text = "self" || w.text = "super"
      | .ident w :: _ => w.text = "in"
      | _ => false
    if restricted then
      if word "in" content then
        inside .paren do
          takeWord "in"
          let _ ← plainPath
      else setRest tokens
  | _ => return true
  return true

/-- Bounds with plus signs between them, up to where a test holds. -/
def boundsUntil (g : Grammar) (stop : Look) : Parser Unit := do
  let _ ← separatedUntil stop "+" (bound g)

/-- A parameter in angle brackets, with its name if it stands for a type. -/
def genericParam (g : Grammar) : Parser (Option String) := do
  let _ ← outerAttributes g
  let tokens ← rest
  if lifetime tokens then
    takeLifetime
    if ← optOp ":" then
      let _ ← chain (fun tokens => op "," tokens || op ">" tokens) "+" takeLifetime
    return none
  if ident tokens then
    let name ← takeIdent
    if ← optOp ":" then
      let stop : Look := fun tokens => op "," tokens || op ">" tokens || op "=" tokens
      let _ ← chain stop "+" (bound g)
    if ← optOp "=" then
      let _ ← g.type
    return some name
  if word "_" tokens then return some (← takeAnyWord)
  takeWord "const"
  let _ ← takeIdent
  takeOp ":"
  let _ ← g.type
  if ← optOp "=" then constArgument g
  return none

/-- Parameters in angle brackets, if there are any, with the names of those that stand for
types. -/
def generics (g : Grammar) : Parser (Option (List String)) := do
  if ← optOp "<" then
    let names ← separatedUntil (op ">") "," (genericParam g)
    takeOp ">"
    return some (names.filterMap id)
  return none

/-- Where a list of conditions or of the bounds in one may end. -/
def endsWhere : Look := fun tokens =>
  tokens.isEmpty || group .brace tokens || op "," tokens || op ";" tokens
    || (op ":" tokens && !op "::" tokens) || op "=" tokens

/-- A condition on a lifetime or a type. -/
def condition (g : Grammar) : Parser Unit := do
  let tokens ← rest
  if lifetime tokens && op ":" (skip 1 tokens) then
    takeLifetime
    takeOp ":"
    let _ ← chain endsWhere "+" takeLifetime
  else
    let _ ← optBoundLifetimes g
    let _ ← g.type
    takeOp ":"
    let _ ← chain endsWhere "+" (bound g)

/-- Conditions behind `where`; whether there are any. -/
def whereClause (g : Grammar) : Parser Bool := do
  if ← optWord "where" then
    let _ ← chain endsWhere "," (condition g)
    return true
  return false

/-! ### Functions -/

/-- The receiver of a method. -/
def receiver (g : Grammar) : Parser Unit := do
  let reference ← optOp "&"
  if reference then
    let _ ← optLifetime
  let _ ← optWord "mut"
  takeWord "self"
  if !reference && (← optOp ":") then
    let _ ← g.type

/-- What may stand in the list of parameters. -/
inductive ParamForm where
  | receiver
  | param (p : Param)
  /-- Three dots, which end the list. -/
  | dots

def paramForm (g : Grammar) : Parser ParamForm := do
  let attributes ← outerAttributes g
  if ← optOp "..." then return .dots
  if (← attempt (receiver g)).isSome then return .receiver
  let tokens ← rest
  if ident tokens && op "<" (skip 1 tokens) then
    return .param ⟨attributes, .other, ← g.type⟩
  let pattern ← g.pattern
  takeOp ":"
  if ← optOp "..." then return .dots
  return .param ⟨attributes, pattern, ← g.type⟩

/-- The parameters of a function up to the end.  Only the first one may be a receiver. -/
def params (g : Grammar) : Nat → Bool → Parser (List Param)
  | 0, _ => fail
  | fuel + 1, isFirst => do
    if ← atEnd then return []
    let form ← paramForm g
    let separate : Parser Unit := do
      if !(← atEnd) then takeOp ","
    match form with
    | .dots => do
      separate
      return []
    | .receiver => do
      if !isFirst then fail
      separate
      params g fuel false
    | .param p => do
      separate
      return p :: (← params g fuel false)

/-- Whether the tokens begin a function. -/
def beginsFunction (safe : Bool) : Look := fun tokens =>
  let dropWord (w : String) (tokens : List Token) := if word w tokens then skip 1 tokens else tokens
  let tokens := dropWord "async" (dropWord "const" tokens)
  let tokens := if safe && word "safe" tokens then skip 1 tokens else dropWord "unsafe" tokens
  let tokens :=
    if word "extern" tokens then
      match skip 1 tokens with
      | .literal (.text _) :: tokens => tokens
      | tokens => tokens
    else tokens
  word "fn" tokens

/-- The head of a function. -/
def signature (g : Grammar) (safe : Bool) : Parser Signature := do
  let _ ← optWord "const"
  let _ ← optWord "async"
  if safe && (← sees (word "safe")) then takeWord "safe"
  else
    let _ ← optWord "unsafe"
  optAbi
  takeWord "fn"
  let name ← takeIdent
  let _ ← generics g
  let ps ← inside .paren do params g ((← rest).length + 1) true
  let out ← output g.type
  let _ ← whereClause g
  return ⟨name, ps, out⟩

/-- The body of a function, with the attributes at its start. -/
def body (g : Grammar) : Parser (List Attribute) :=
  inside .brace do
    let attributes ← innerAttributes g
    g .statements
    return attributes

/-! ### Structures and enumerations -/

/-- A field with a name. -/
def namedField (g : Grammar) : Parser Field := do
  let attributes ← outerAttributes g
  let _ ← visibility
  let name ← if ← sees (word "_") then takeAnyWord else takeIdent
  takeOp ":"
  return ⟨attributes, name, ← g.type⟩

/-- A field without a name. -/
def unnamedField (g : Grammar) : Parser TypeExpr := do
  let _ ← outerAttributes g
  let _ ← visibility
  g.type

def namedFields (g : Grammar) : Parser (List Field) := inside .brace (commaList (namedField g))

def unnamedFields (g : Grammar) : Parser (List TypeExpr) :=
  inside .paren (commaList (unnamedField g))

/-- What stands behind the name and the parameters of a structure. -/
def structBody (g : Grammar) : Parser Fields := do
  let conditional ← whereClause g
  let tokens ← rest
  if !conditional && group .paren tokens then
    let types ← unnamedFields g
    let _ ← whereClause g
    takeOp ";"
    return .unnamed types
  if group .brace tokens then return .named (← namedFields g)
  takeOp ";"
  return .unit

def variant (g : Grammar) : Parser Variant := do
  let attributes ← outerAttributes g
  let _ ← visibility
  let name ← takeIdent
  let tokens ← rest
  if group .brace tokens then
    let _ ← namedFields g
  else if group .paren tokens then
    let _ ← unnamedFields g
  if ← optOp "=" then
    let _ ← g.expr
  return ⟨attributes, name⟩

/-! ### Constants, types and macro calls inside other items -/

/-- What stands behind `const`; whether it is a plain constant, and whether it has a value. -/
def constBody (g : Grammar) : Parser (Bool × Bool) := do
  let _ ← if ← sees (word "_") then takeAnyWord else takeIdent
  let params ← generics g
  takeOp ":"
  let _ ← g.type
  let valued ← optOp "="
  if valued then
    let _ ← g.expr
  let conditional ← whereClause g
  takeOp ";"
  return (params.isNone && !conditional, valued)

/-- A type declaration. -/
structure TypeDecl where
  isVisible : Bool
  name : String
  isBounded : Bool
  definition : Option TypeExpr

/-- A type declaration; `early` and `late` say where conditions may stand. -/
def typeDecl (g : Grammar) (overridable early late : Bool) : Parser TypeDecl := do
  let isVisible ← visibility
  if overridable then
    let _ ← optWord "default"
  takeWord "type"
  let name ← takeIdent
  let _ ← generics g
  let isBounded ← optOp ":"
  if isBounded then
    boundsUntil g fun tokens => word "where" tokens || op "=" tokens || op ";" tokens
  let conditional ← if early then whereClause g else pure false
  let definition ← if ← optOp "=" then pure (some (← g.type)) else pure none
  if late && !conditional then
    let _ ← whereClause g
  takeOp ";"
  return ⟨isVisible, name, isBounded, definition⟩

/-- A macro call that stands where an item may. -/
def macroItem (named : Bool) : Parser Unit := do
  let _ ← plainPath
  takeOp "!"
  if named && ((← sees ident) || (← sees (word "try"))) then
    let _ ← takeAnyWord
  let (delimiter, _) ← takeGroup
  if delimiter ≠ .brace then takeOp ";"

/-- What a macro call may begin with. -/
def beginsMacro : Look := fun tokens =>
  ident tokens || op "::" tokens || ["self", "super", "crate"].any fun w => word w tokens

/-- A parser that decides at its end whether what it noted counts. -/
def counting (p : Parser (Bool × α)) : Parser (Option α) := do
  let ((counts, a), items) ← collecting p
  if counts then
    noteAll items
    return some a
  return none

/-- An item of a trait, if it is a method. -/
def traitMember (g : Grammar) : Parser (Option Method) := do
  let result ← counting do
    let attributes ← outerAttributes g
    let isVisible ← visibility
    let overridable ← optWord "default"
    let counts := !isVisible && !overridable
    let tokens ← rest
    if beginsFunction false tokens then
      let more ← outerAttributes g
      let head ← signature g false
      let inner ←
        if ← sees (group .brace) then body g
        else do
          takeOp ";"
          pure []
      return (counts, some (Method.mk (attributes ++ more ++ inner) head))
    if word "const" tokens then
      takeWord "const"
      let (plain, _) ← constBody g
      return (counts && plain, none)
    if word "type" tokens then
      let _ ← typeDecl g false false true
      return (counts, none)
    if counts && beginsMacro tokens then
      macroItem false
      return (true, none)
    fail
  return result.join

/-- An item of an `impl` block, if it is a method. -/
def implMember (g : Grammar) : Parser (Option Method) := do
  let result ← counting do
    let attributes ← outerAttributes g
    let start ← rest
    let isVisible ← visibility
    let tokens ← rest
    let overridable := word "default" tokens && !op "!" (skip 1 tokens)
    let tokens := if overridable then skip 1 tokens else tokens
    if beginsFunction false tokens then
      let _ ← optWord "default"
      let head ← signature g false
      if ← optOp ";" then return (false, none)
      let inner ← body g
      return (true, some (Method.mk (attributes ++ inner) head))
    if word "const" tokens then
      let _ ← optWord "default"
      takeWord "const"
      let (plain, valued) ← constBody g
      return (plain && valued, none)
    if word "type" tokens then
      setRest start
      let decl ← typeDecl g true false true
      return (!decl.isBounded && decl.definition.isSome, none)
    if !isVisible && !overridable && beginsMacro tokens then
      macroItem false
      return (true, none)
    fail
  return result.join

/-- An item of a foreign block. -/
def foreignMember (g : Grammar) : Parser Unit := do
  let _ ← counting do
    let _ ← outerAttributes g
    let start ← rest
    let isVisible ← visibility
    let tokens ← rest
    let safe := word "safe" tokens
    let unchecked := safe || word "unsafe" tokens
    if beginsFunction true tokens then
      let _ ← signature g true
      if ← sees (group .brace) then
        let _ ← body g
        return (false, ())
      takeOp ";"
      return (!safe, ())
    if word "static" tokens || (unchecked && word "static" (skip 1 tokens)) then
      if unchecked then
        let _ ← takeAnyWord
      takeWord "static"
      let _ ← optWord "mut"
      let _ ← takeIdent
      takeOp ":"
      let _ ← g.type
      let valued ← optOp "="
      if valued then
        let _ ← g.expr
      takeOp ";"
      return (!unchecked && !valued, ())
    if word "type" tokens then
      setRest start
      let decl ← typeDecl g false true true
      return (!decl.isBounded && decl.definition.isNone, ())
    if !isVisible && beginsMacro tokens then
      macroItem false
      return (true, ())
    fail

/-! ### Items -/

/-- An `impl` block, or nothing where it is in a form without a meaning. -/
def implItem (g : Grammar) (attributes : List Attribute) : Parser Unit := do
  let (made, nested) ← collecting do
    let isVisible ← visibility
    let _ ← optWord "default"
    let _ ← optWord "unsafe"
    takeWord "impl"
    let tokens ← rest
    let behind := skip 1 tokens
    let third := skip 1 behind
    let parametric := op "<" tokens
      && (op ">" behind || op "#" behind || word "const" behind
        || ((lifetime behind || ident behind)
          && (op ">" third || op "," third || (op ":" third && !op "::" third) || op "=" third)))
    if parametric then
      let _ ← generics g
    let tokens ← rest
    let isConst := word "const" tokens || (op "?" tokens && word "const" (skip 1 tokens))
    if isConst then
      let _ ← optOp "?"
      takeWord "const"
    let tokens ← rest
    let negative := op "!" tokens && !group .brace (skip 1 tokens)
    if negative then takeOp "!"
    let qualified ← sees (op "<")
    let first ← g.type
    let isFor ← optWord "for"
    let namesTrait := match first with
      | .path _ _ => !qualified
      | _ => false
    let target ←
      if isFor then g.type
      else if negative then pure .unread
      else pure first
    let _ ← whereClause g
    let (inner, methods) ← inside .brace do
      let inner ← innerAttributes g
      return (inner, ← manyToEnd (implMember g))
    if isVisible || isConst || (isFor && !namesTrait) then return none
    return some (attributes ++ inner, target, methods.filterMap id)
  match made with
  | some (all, target, methods) => note (.implBlock all target methods nested)
  | none => return ()

/-- A trait, behind its visibility and what else may stand before `trait`. -/
def traitItem (g : Grammar) (attributes : List Attribute) : Parser Unit := do
  let (made, nested) ← collecting do
    takeWord "trait"
    let name ← takeIdent
    let _ ← generics g
    if ← optOp ":" then boundsUntil g fun tokens => word "where" tokens || group .brace tokens
    let _ ← whereClause g
    let (inner, methods) ← inside .brace do
      let inner ← innerAttributes g
      return (inner, ← manyToEnd (traitMember g))
    return (attributes ++ inner, name, methods.filterMap id)
  let (all, name, methods) := made
  note (.traitBlock all name methods nested)

/-- A trait, or another name for several bounds. -/
def traitOrAlias (g : Grammar) (attributes : List Attribute) : Parser Unit := do
  let isAlias ← do
    let aliasHead : Parser Unit := do
      takeWord "trait"
      let _ ← takeIdent
      let _ ← generics g
      takeOp "="
    pure (← attempt (unnoted aliasHead)).isSome
  if isAlias then
    boundsUntil g fun tokens => word "where" tokens || op ";" tokens
    let _ ← whereClause g
    takeOp ";"
  else traitItem g attributes

/-- A module, whose items are noted where it stands. -/
def moduleItem (g : Grammar) : Parser Unit := do
  let _ ← optWord "unsafe"
  takeWord "mod"
  let _ ← if ← sees (word "try") then takeAnyWord else takeIdent
  if ← optOp ";" then return ()
  inside .brace do
    let _ ← innerAttributes g
    let _ ← manyToEnd (g .item)

/-- A block of foreign items. -/
def foreignItem (g : Grammar) : Parser Unit := do
  let _ ← optWord "unsafe"
  if !(← sees (word "extern")) then fail
  optAbi
  inside .brace do
    let _ ← innerAttributes g
    let _ ← manyToEnd (foreignMember g)

def externCrate : Parser Unit := do
  takeWord "extern"
  takeWord "crate"
  let _ ← if ← sees (word "self") then takeAnyWord else takeIdent
  if ← optWord "as" then
    let _ ← if ← sees (word "_") then takeAnyWord else takeIdent
  takeOp ";"

/-- What a `use` item brings in. -/
def useTreeRule (g : Grammar) (rooted : Bool) : Parser Unit := do
  let tokens ← rest
  if ident tokens || ["self", "super", "crate", "try"].any fun w => word w tokens then
    let _ ← takeAnyWord
    if ← optOp "::" then g (.useTree false)
    else if ← optWord "as" then
      let _ ← if ← sees (word "_") then takeAnyWord else takeIdent
  else if op "*" tokens then takeOp "*"
  else
    inside .brace do
      let _ ← commaList do
        let root ← if rooted then optOp "::" else pure false
        g (.useTree (rooted && !root))

def useItem (g : Grammar) : Parser Unit := do
  takeWord "use"
  let root ← optOp "::"
  g (.useTree !root)
  takeOp ";"

/-- A static variable; whether it has both a type and a value. -/
def staticItem (g : Grammar) : Parser (Bool × Unit) := do
  takeWord "static"
  let _ ← optWord "mut"
  let _ ← takeIdent
  let typed ← optOp ":"
  if typed then
    let _ ← g.type
  if typed && (← optOp ";") then return (false, ())
  takeOp "="
  let _ ← g.expr
  takeOp ";"
  return (typed, ())

/-- The declaration of a macro by `macro`. -/
def macroDecl : Parser Unit := do
  takeWord "macro"
  let _ ← takeIdent
  if ← sees (group .paren) then
    let _ ← takeGroup
  let (delimiter, _) ← takeGroup
  if delimiter ≠ .brace then fail

/-- Notes the items that a parser comes across as the items inside another one. -/
def enclosing (p : Parser Unit) : Parser Unit := do
  let (_, nested) ← collecting p
  note (.other nested)

/-- `enclosing`, for a parser that decides at its end whether what it noted counts. -/
def enclosingIf (p : Parser (Bool × Unit)) : Parser Unit := do
  let _ ← counting do
    let ((counts, _), nested) ← collecting p
    note (.other nested)
    return (counts, ())

/-- An item behind its attributes. -/
def itemBehind (g : Grammar) (attributes : List Attribute) : Parser Unit := do
  let start ← rest
  let isVisible ← visibility
  let tokens ← rest
  let behind := skip 1 tokens
  if beginsFunction false tokens then
    enclosingIf do
      let _ ← signature g false
      if ← optOp ";" then return (false, ())
      let _ ← body g
      return (true, ())
  else if word "extern" tokens then
    if word "crate" behind then externCrate
    else if isVisible then fail
    else enclosing (foreignItem g)
  else if word "use" tokens then useItem g
  else if word "static" tokens then enclosingIf (staticItem g)
  else if word "const" tokens then
    enclosingIf do
      takeWord "const"
      let (plain, valued) ← constBody g
      return (plain && valued, ())
  else if word "unsafe" tokens then
    if word "trait" behind || (word "auto" behind && word "trait" (skip 2 tokens)) then
      takeWord "unsafe"
      let _ ← optWord "auto"
      traitItem g attributes
    else if word "impl" behind then
      setRest start
      implItem g attributes
    else if word "extern" behind then
      if isVisible then fail else enclosing (foreignItem g)
    else enclosing (moduleItem g)
  else if word "mod" tokens then enclosing (moduleItem g)
  else if word "type" tokens then
    let (decl, nested) ← collecting (typeDecl g false true false)
    match decl.definition with
    | some target => if decl.isBounded then return () else note (.aliasDecl decl.name target nested)
    | none => return ()
  else if word "struct" tokens then
    let ((name, params, fields), nested) ← collecting do
      takeWord "struct"
      let name ← takeIdent
      let params ← generics g
      return (name, params, ← structBody g)
    note (.structDecl name (params.getD []) fields nested)
  else if word "enum" tokens then
    let ((name, variants), nested) ← collecting do
      takeWord "enum"
      let name ← takeIdent
      let _ ← generics g
      let _ ← whereClause g
      return (name, ← inside .brace (commaList (variant g)))
    note (.enumDecl name variants nested)
  else if word "union" tokens && ident behind then
    enclosing do
      takeWord "union"
      let _ ← takeIdent
      let _ ← generics g
      let _ ← whereClause g
      let _ ← namedFields g
  else if word "trait" tokens then traitOrAlias g attributes
  else if word "auto" tokens && word "trait" behind then
    takeWord "auto"
    traitItem g attributes
  else if word "impl" tokens || (word "default" tokens && !op "!" behind) then
    setRest start
    implItem g attributes
  else if word "macro" tokens then macroDecl
  else if !isVisible && beginsMacro tokens then macroItem true
  else fail

/-- An item with its attributes. -/
def itemRule (g : Grammar) : Parser Unit := do
  itemBehind g (← outerAttributes g)

/-! ### Statements -/

/-- A `let` statement. -/
def letStatement (g : Grammar) : Parser Unit := do
  takeWord "let"
  let _ ← g.pattern
  if ← optOp ":" then
    let _ ← g.type
  if ← optOp "=" then
    let value ← g.expr
    if !value.endsWithBrace && (← optWord "else") then g.block
  takeOp ";"

/-- Whether a statement is an item. -/
def beginsItem : Look := fun tokens =>
  let second := skip 1 tokens
  let third := skip 2 tokens
  let asyncBlock := word "async" second
    && !(word "unsafe" third || word "extern" third || word "fn" third)
  ["pub", "extern", "use", "fn", "mod", "type", "struct", "enum", "trait", "impl",
    "macro"].any (fun w => word w tokens)
    || (word "crate" tokens && !op "::" second)
    || (word "static" tokens && (word "mut" second || ident second))
    || (word "const" tokens && !(group .brace second || word "static" second || asyncBlock
        || word "move" second || op "|" second))
    || (word "unsafe" tokens && !group .brace second)
    || (word "async" tokens && (word "unsafe" second || word "extern" second || word "fn" second))
    || (word "union" tokens && ident second)
    || (word "auto" tokens && word "trait" second)
    || (word "default" tokens && (word "unsafe" second || word "impl" second))

/-- How a statement goes on that begins with a path and an exclamation mark. -/
inductive MacroForm where
  | expression
  | item
  | statement

/-- Looks for a macro call at the start of a statement. -/
def macroForm : Parser MacroForm := do
  let start ← rest
  let path? ← attempt plainPath
  let tokens ← rest
  setRest start
  if path?.isNone || !op "!" tokens then return .expression
  let second := skip 1 tokens
  let third := skip 2 tokens
  if ident second || word "try" second then return .item
  if group .brace second && !(dot third || op "?" third) then return .statement
  return .expression

/-- A statement; whether it needs something between it and the next one. -/
def statement (g : Grammar) : Parser Bool := do
  let attributes ← outerAttributes g
  let form ← macroForm
  match form with
  | .statement => do
    let _ ← plainPath
    takeOp "!"
    let _ ← takeGroup
    let _ ← optOp ";"
    return false
  | form => do
    let tokens ← rest
    let isItem := match form with
      | .item => true
      | _ => beginsItem tokens
    if word "let" tokens then
      letStatement g
      return false
    if isItem then
      itemBehind g attributes
      return false
    let e ← g .standing
    if ← optOp ";" then return false
    return e.needsSemicolon

/-- Statements up to the end of the tokens. -/
def statementsRule (g : Grammar) : Parser Unit := do
  let _ ← many do
    let _ ← manyWhile (op ";") (takeOp ";")
    if ← atEnd then return none
    let needsSemicolon ← statement g
    if needsSemicolon && !(← atEnd) then fail
    return some ()

end Parser
end Source
end RouteBook
