import RouteBook.Schema.Row
/-! # Rows, field by field

The rows of a schema are collected by a walk with a list of the nodes that are still to be visited.
What the walk shows is documented as a recursion over the tree: a node has its own row first, and
behind it come the rows of what is below, an element under the path with brackets and a field under
the path with its key (`Schema.rowsUnder`).

The two are equal (`Schema.rows_eq_rowsUnder`).  One visit shows the row of the node and leaves the
nodes below it to be visited before all others (`Visit.allRows_eq`), so what a list of nodes still
shows is what each of its nodes shows, one after the other.  Every visit takes a node away for good,
and the walk ends after as many visits as the tree has nodes.
-/
namespace RouteBook
namespace Schema

mutual
/-- The rows of a schema under a path.  The element of an array has no row of its own; nor has an
object without a path, and an array without one has a row if its elements have none. -/
def rowsUnder (path : String) (isElement : Bool) : Schema → List Row
  | .primitive label _ =>
    if label.isAvailable && !isElement then [.ofLabel path label] else []
  | .text label _ =>
    if label.isAvailable && !isElement then [.ofLabel path label] else []
  | .array label element =>
    if label.isAvailable then
      let own :=
        if path = "" then if element.isScalar then [.ofLabel "[]" label] else []
        else if isElement then [] else [.ofLabel path label]
      own ++ if element.isScalar then [] else rowsUnder (path ++ "[]") true element
    else []
  | .object label _ fields =>
    if label.isAvailable then
      (if isElement || path = "" then [] else [.ofLabel path label]) ++ rowsOfFields path fields
    else []

/-- The rows of the fields of an object under its path, in the order of the fields. -/
def rowsOfFields (path : String) : List (String × Schema) → List Row
  | [] => []
  | (key, field) :: fields =>
    rowsUnder (fieldPath path key) false field ++ rowsOfFields path fields
end

namespace Visit

/-- What a visit and those that follow from it show. -/
def allRows (v : Visit) : List Row := v.node.rowsUnder v.path !v.isShown

/-- The walk, up to a number of visits: the rows that it shows, and the nodes that are left. -/
def walk : Nat → List Visit → List Row × List Visit
  | 0, vs => ([], vs)
  | _ + 1, [] => ([], [])
  | n + 1, v :: vs =>
    let behind := walk n (v.below ++ vs)
    (v.row?.toList ++ behind.1, behind.2)

theorem rowsUnder_of_not_isAvailable {s : Schema} (h : s.isAvailable = false) (path : String)
    (isElement : Bool) : s.rowsUnder path isElement = [] := by
  rw [isAvailable] at h
  cases s <;> rw [Schema.label] at h <;> simp [rowsUnder, h]

theorem rowsOfFields_eq (path : String) (fields : List (String × Schema)) :
    rowsOfFields path fields =
      (fields.map fun f => ⟨fieldPath path f.1, f.2, true⟩).flatMap allRows := by
  induction fields with
  | nil => rfl
  | cons f fields ih =>
    rw [rowsOfFields, ih, List.map_cons, List.flatMap_cons]
    rfl

/-- **One visit** shows the row of the node; the nodes below it show the rest. -/
theorem allRows_eq (v : Visit) : v.allRows = v.row?.toList ++ v.below.flatMap allRows := by
  obtain ⟨path, node, isShown⟩ := v
  rw [allRows]
  cases available : node.isAvailable with
  | false => simp [row?, below, available, rowsUnder_of_not_isAvailable available]
  | true =>
    have shown : node.label.isAvailable = true := available
    rw [row?, below, available]
    cases node with
    | primitive label sample => cases isShown <;> simp_all [rowsUnder, Schema.label]
    | text label sample => cases isShown <;> simp_all [rowsUnder, Schema.label]
    | array label element =>
      rw [Schema.label] at shown
      rw [rowsUnder, shown]
      by_cases root : path = ""
      · cases scalar : element.isScalar <;> simp [root, scalar, allRows]
      · cases scalar : element.isScalar <;> cases isShown <;> simp [root, scalar, allRows]
    | object label isRecursive fields =>
      rw [Schema.label] at shown
      rw [rowsUnder, rowsOfFields_eq, shown]
      by_cases root : path = "" <;> cases isShown <;> simp [root]

/-- What a list of nodes still shows is what each of them shows. -/
theorem rows_eq_flatMap (vs : List Visit) : rows vs = vs.flatMap allRows := by
  fun_induction rows vs with
  | case1 => rfl
  | case2 v vs ih =>
    rw [ih, List.flatMap_append, ← List.append_assoc, ← allRows_eq, List.flatMap_cons]

theorem size_pos (s : Schema) : 0 < s.size := by
  cases s <;> simp only [size] <;> omega

/-- **The walk ends** after no more visits than there are nodes. -/
theorem walk_eq (n : Nat) (vs : List Visit) (enough : weight vs ≤ n) : walk n vs = (rows vs, []) := by
  induction n generalizing vs with
  | zero =>
    cases vs with
    | nil => rw [walk, rows]
    | cons v vs =>
      have := size_pos v.node
      rw [weight_cons] at enough
      omega
  | succ n ih =>
    cases vs with
    | nil => rw [walk, rows]
    | cons v vs =>
      have left : weight (v.below ++ vs) ≤ n := by
        have below := weight_below_lt v
        rw [weight_append]
        rw [weight_cons] at enough
        omega
      rw [walk, ih _ left, rows]

end Visit

/-- **The rows of a schema are those of the recursion** over its tree, which starts with the key of
the root.  The walk that collects them has visited everything after as many visits as the tree has
nodes. -/
theorem rows_eq_rowsUnder (s : Schema) :
    s.rows = s.rowsUnder (s.label.key.getD "") false ∧
    Visit.walk s.size [⟨s.label.key.getD "", s, true⟩] = (s.rows, []) := by
  refine ⟨?_, Visit.walk_eq _ _ (Nat.le_refl _)⟩
  rw [rows, Visit.rows_eq_flatMap, List.flatMap_singleton]
  rfl

end Schema
end RouteBook
