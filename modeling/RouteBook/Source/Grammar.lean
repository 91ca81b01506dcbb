import RouteBook.Source.Grammar.Items
import RouteBook.Source.Lexer
/-! # Reading source

The rules of the grammar tied together (`grammarAt`), and what is read with them: source files
(`Item.parseFile?`), types (`TypeExpr.parse?`) and the arguments of attributes (`Expr.list?`).
-/
namespace RouteBook
namespace Source

/-- The rules of all categories, at most so many rules deep. -/
def grammarAt : Nat → Grammar
  | 0 => fun _ => Parser.fail
  | fuel + 1 => fun
    | .type plus => Parser.typeRule (grammarAt fuel) plus
    | .expr structs => Parser.exprRule (grammarAt fuel) structs
    | .unary structs => Parser.unaryRule (grammarAt fuel) structs
    | .standing => Parser.standingRule (grammarAt fuel)
    | .pattern => Parser.patternRule (grammarAt fuel)
    | .statements => Parser.statementsRule (grammarAt fuel)
    | .item => Parser.itemRule (grammarAt fuel)
    | .useTree rooted => Parser.useTreeRule (grammarAt fuel) rooted

/-- The grammar for the given tokens.  No more than four rules go into each other before a
token is consumed. -/
def grammarFor (tokens : List Token) : Grammar := grammarAt (4 * Token.sizes tokens + 16)

/-- Reads all of the tokens, with the items that the parser notes. -/
def readAll? {α : Type} (p : Grammar → Parser α) (tokens : List Token) :
    Option (α × List Item) :=
  match (p (grammarFor tokens)) ⟨tokens, []⟩ with
  | some (a, ⟨[], nested⟩) => some (a, nested.reverse)
  | _ => none

/-- A type that is given as text. -/
def TypeExpr.parse? (text : String) : Option TypeExpr := do
  let tokens ← Token.scan? text.toList
  let (type, _) ← readAll? (fun g => g.type) tokens
  return type

/-- The expressions between the commas of an attribute's arguments. -/
def Expr.list? (tokens : List Token) : Option (List Expr) :=
  (readAll? (fun g => Parser.commaList g.expr) tokens).map Prod.fst

/-- A source text without its first line, if that names an interpreter. -/
def withoutInterpreter (text : List Char) : List Char :=
  if Scan.startsWith "#!" text
      && ((Scan.skipSpace text.length (text.drop 2)).head? != some '[') then
    text.dropWhile (· ≠ '\n')
  else text

/-- The items of a source file, or nothing if its text does not follow the grammar. -/
def Item.parseFile? (text : String) : Option (List Item) := do
  let text := text.toList
  let text := if text.head? = some (Char.ofNat 0xFEFF) then text.drop 1 else text
  let tokens ← Token.scan? (withoutInterpreter text)
  let (_, items) ← readAll? (fun g => do
    let _ ← Parser.innerAttributes g
    Parser.manyToEnd (g .item)) tokens
  return items

end Source
end RouteBook
