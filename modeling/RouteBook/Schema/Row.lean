import RouteBook.Schema.Basic
/-! # Rows

A schema is shown as a table with a row for every field.  The key of a row is the path to the
field: names joined by points, with `[]` for the elements of an array.  `Schema.rows` walks over
the tree with a list of the nodes that are still to be visited.
-/
namespace RouteBook

structure Row where
  key : String
  type : String
  condition : String
  fallback : Option String
  remark : Option String
  deriving DecidableEq, Repr, Inhabited

/-- Whether a value has to be given. -/
def Label.condition (label : Label) : String :=
  match label.required, label.fallback.isSome with
  | true, false => "required"
  | true, true => "required (has default)"
  | false, true => "optional (has default)"
  | false, false => "optional"

namespace Row

/-- The row of a node under a key. -/
def ofLabel (key : String) (label : Label) : Row where
  key := key
  type := label.type
  condition := label.condition
  fallback := label.fallback.map Json.plainText
  remark := label.remark

end Row

namespace Schema

/-- The path of a field. -/
def fieldPath (parent key : String) : String := if parent = "" then key else parent ++ "." ++ key

/-- A node that is still to be visited. -/
structure Visit where
  path : String
  node : Schema
  /-- Whether the node has a row of its own; the element of an array has none. -/
  isShown : Bool

namespace Visit

/-- The row that a node has itself. -/
def row? (v : Visit) : Option Row :=
  if !v.node.isAvailable then none
  else
    match v.node with
    | .primitive label _ => if v.isShown then some (.ofLabel v.path label) else none
    | .text label _ => if v.isShown then some (.ofLabel v.path label) else none
    | .array label element =>
      if v.path = "" then
        if element.isScalar then some (.ofLabel "[]" label) else none
      else if v.isShown then some (.ofLabel v.path label) else none
    | .object label _ _ => if v.isShown && v.path ≠ "" then some (.ofLabel v.path label) else none

/-- The nodes below a node that have rows. -/
def below (v : Visit) : List Visit :=
  if !v.node.isAvailable then []
  else
    match v.node with
    | .primitive _ _ => []
    | .text _ _ => []
    | .array _ element => if element.isScalar then [] else [⟨v.path ++ "[]", element, false⟩]
    | .object _ _ fields => fields.map fun (key, field) => ⟨fieldPath v.path key, field, true⟩

/-- The number of nodes in all the trees that are still to be visited. -/
def weight : List Visit → Nat
  | [] => 0
  | v :: vs => v.node.size + weight vs

theorem weight_cons (v : Visit) (vs : List Visit) :
    weight (v :: vs) = v.node.size + weight vs := rfl

theorem weight_append (vs ws : List Visit) : weight (vs ++ ws) = weight vs + weight ws := by
  induction vs with
  | nil => rw [List.nil_append, weight, Nat.zero_add]
  | cons v vs ih => rw [List.cons_append, weight_cons, weight_cons, ih, Nat.add_assoc]

theorem weight_fields (path : String) (fields : List (String × Schema)) :
    weight (fields.map fun (key, field) => ⟨fieldPath path key, field, true⟩) =
      fieldsSize fields := by
  induction fields with
  | nil => rfl
  | cons f fields ih =>
    obtain ⟨key, field⟩ := f
    rw [List.map_cons, weight_cons, ih]
    simp [fieldsSize]

/-- There is less below a node than in it. -/
theorem weight_below_lt (v : Visit) : weight v.below < v.node.size := by
  obtain ⟨path, node, isShown⟩ := v
  unfold below
  cases node with
  | primitive => simp [weight, size]
  | text => simp [weight, size]
  | array label element =>
    simp only [size]
    split
    · simp [weight]
    · split
      · simp [weight]
      · simp [weight]
  | object label isRecursive fields =>
    simp only [size]
    split
    · simp [weight]
    · rw [weight_fields]
      omega

/-- The rows of the nodes that are still to be visited, and of all that is below them. -/
def rows : List Visit → List Row
  | [] => []
  | v :: vs => v.row?.toList ++ rows (v.below ++ vs)
termination_by vs => weight vs
decreasing_by
  rw [weight_append, weight_cons]
  have := weight_below_lt v
  omega

end Visit

/-- The rows of a schema. -/
def rows (s : Schema) : List Row := Visit.rows [⟨s.label.key.getD "", s, true⟩]

end Schema
end RouteBook
