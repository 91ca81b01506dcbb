import RouteBook.Config.Decode
import RouteBook.Yaml.Parser
/-! # What YAML nodes stand for

A text is the text of any scalar.  Only a scalar without quotes can stand for a number, a truth
value or an absent value, and one that is empty stands for an empty list or record as well.
-/
namespace RouteBook
namespace Yaml

def nullTag : String := "tag:yaml.org,2002:null"
def boolTag : String := "tag:yaml.org,2002:bool"
def intTag : String := "tag:yaml.org,2002:int"

namespace Document

variable (d : Document)

def text? (node : Node) : Option String :=
  match d.follow node with
  | some (.scalar _ _ text) => some text
  | _ => none

/-- The text of a scalar that stands for a value of a kind: one without quotes, or a literal
block with the tag of that kind. -/
def valueText? (kindTag : String) (node : Node) : Option String :=
  match d.follow node with
  | some (.scalar _ .plain text) => some text
  | some (.scalar tag .literal text) => if tag = some kindTag then some text else none
  | _ => none

/-- Whether a node stands for an absent value.  A tag other than that of absence makes it
present. -/
def absent? (node : Node) : Option Bool :=
  match d.follow node with
  | some (.scalar none .plain text) => some (isNull text)
  | some (.scalar (some tag) .plain text) =>
    if tag ≠ nullTag then some false
    else if isNull text && !text.isEmpty then some true
    else none
  | some _ => some false
  | none => none

def truth? (node : Node) : Option Bool := (d.valueText? boolTag node).bind bool?

/-- A number without a minus sign, below `2 ^ 64`. -/
def count? (node : Node) : Option Nat := do
  let text ← d.valueText? intTag node
  if text.startsWith "-" then none
  let n := (← int? text).toNat
  if n < Nat.pow 2 64 then some n else none

def items? (node : Node) : Option (List Node) :=
  match d.follow node with
  | some (.sequence items) => some items
  | some (.scalar _ .plain "") => some []
  | _ => none

/-- The members of a map, whose keys all have to be texts. -/
def members? (node : Node) : Option (List (String × Node)) :=
  match d.follow node with
  | some (.map members) => members.mapM fun (key, value) => return (← d.text? key, value)
  | some (.scalar _ .plain "") => some []
  | _ => none

/-- A format is named by a text, or by the tag of an empty value. -/
def format? (node : Node) : Option OutputFormat :=
  match d.follow node with
  | some (.scalar tag style text) =>
    match tag.map String.toList with
    | some ('!' :: name) =>
      if style == .plain && isNull text then OutputFormat.ofName? (String.ofList name) else none
    | _ => OutputFormat.ofName? text
  | _ => none

def decoder : Decoder Node where
  text? := d.text?
  absent? := d.absent?
  bool? := d.truth?
  count? := d.count?
  items? := d.items?
  members? _ := d.members?
  format? := d.format?

end Document
end Yaml
end RouteBook
