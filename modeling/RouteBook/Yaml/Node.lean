import RouteBook.Yaml.Token
/-! # Nodes

A document is a tree of nodes.  A node that has a name can stand in several places; everywhere
but at the first one, it is referred to by a number.
-/
namespace RouteBook
namespace Yaml

inductive Node where
  /-- A text with its tag, if it has one. -/
  | scalar (tag : Option String) (style : ScalarStyle) (text : String)
  | sequence (items : List Node)
  | map (members : List (Node × Node))
  | reference (number : Nat)
  deriving Repr, Inhabited

/-- The node of which nothing is written. -/
def Node.empty : Node := .scalar none .plain ""

structure Document where
  /-- Without a root, nothing but comments is in the text. -/
  root : Option Node
  /-- The nodes that are referred to. -/
  named : List (Nat × Node)
  deriving Repr, Inhabited

/-- The node itself that a reference stands for. -/
def Document.follow (d : Document) : Node → Option Node
  | .reference number => d.named.lookup number
  | node => some node

end Yaml
end RouteBook
