import RouteBook.Source.Grammar
/-! # Serialisation rules of fields

The `serde` attributes of a field or a variant say under which key it is written and whether it
is written at all.  Items are read one after another up to the first one that is malformed.
-/
namespace RouteBook

/-- An item of a `serde` attribute. -/
inductive SerdeItem where
  | rename (key : String)
  | skip
  | flatten
  | default
  /-- An item that says nothing about the documented shape. -/
  | other
  deriving DecidableEq, Repr, Inhabited

/-- How a field is serialised. -/
structure FieldRules where
  rename : Option String
  /-- Whether the field is left out. -/
  skip : Bool
  /-- Whether the fields of the field's value take its place. -/
  flatten : Bool
  /-- Whether the field may be missing. -/
  default : Bool
  deriving DecidableEq, Repr, Inhabited

namespace FieldRules

/-- The rules of a field without any attributes. -/
def none : FieldRules := ⟨Option.none, false, false, false⟩

/-- The rules with one more item. -/
def add (rules : FieldRules) : SerdeItem → FieldRules
  | .rename key => { rules with rename := some key }
  | .skip => { rules with skip := true }
  | .flatten => { rules with flatten := true }
  | .default => { rules with default := true }
  | .other => rules

def ofSerdeItems (items : List SerdeItem) : FieldRules := items.foldl add none

end FieldRules

namespace SerdeItem
open Source

/-- Runs a parser on tokens, for its value and the tokens behind it. -/
def run {α : Type} (p : Parser α) (tokens : List Token) : Option (α × List Token) :=
  (p ⟨tokens, []⟩).map fun (a, s) => (a, s.tokens)

/-- The path of an item, in which keywords are allowed. -/
def itemPath : Parser (List String) := do
  let leadingColon ← Parser.optOp "::"
  let first ← Parser.takeAnyWord
  let others ← Parser.many do
    if ← Parser.optOp "::" then return some (← Parser.takeAnyWord)
    return Option.none
  return if leadingColon then "" :: first :: others else first :: others

/-- A text behind an equals sign. -/
def valueText : Parser String := do
  Parser.takeOp "="
  Parser.takeText

/-- What stands behind the path of an item that is not read. -/
def passOver (g : Grammar) : Parser Unit := do
  let tokens ← Parser.rest
  if Parser.op "=" tokens then
    Parser.takeOp "="
    let _ ← g.expr
  else if Parser.group .paren tokens then
    let _ ← Parser.takeGroup

/-- What stands behind the path `default`. -/
def defaultValue : Parser Unit := do
  if ← Parser.sees (Parser.op "=") then
    let _ ← valueText

/-- The items that the tokens hold, up to the first that is malformed. -/
def read (g : Grammar) : Nat → List Token → List SerdeItem
  | 0, _ => []
  | fuel + 1, tokens =>
    let next (tokens : List Token) : List SerdeItem :=
      match tokens with
      | .punct ',' _ :: tokens => if tokens.isEmpty then [] else read g fuel tokens
      | _ => []
    let behind (p : Parser Unit) (tokens : List Token) : List SerdeItem :=
      match run p tokens with
      | some (_, tokens) => next tokens
      | Option.none => []
    match run itemPath tokens with
    | Option.none => []
    | some (path, tokens) =>
      match path with
      | ["rename"] =>
        match run valueText tokens with
        | some (key, tokens) => .rename key :: next tokens
        | Option.none => []
      | ["skip"] => .skip :: next tokens
      | ["skip_deserializing"] => .skip :: next tokens
      | ["flatten"] => .flatten :: next tokens
      | ["default"] => .default :: behind defaultValue tokens
      | _ =>
        match run (passOver g) tokens with
        | some (_, tokens) => .other :: next tokens
        | Option.none => []

/-- The items of an attribute, which has some if it is a `serde` attribute with arguments. -/
def ofAttribute (a : Attribute) : List SerdeItem :=
  if a.isNamed "serde" then
    match a.content with
    | .list tokens => read (grammarFor tokens) (tokens.length + 1) tokens
    | _ => []
  else []

end SerdeItem

/-- The rules that attributes give. -/
def FieldRules.ofAttributes (attributes : List Source.Attribute) : FieldRules :=
  FieldRules.ofSerdeItems (attributes.flatMap SerdeItem.ofAttribute)

end RouteBook
