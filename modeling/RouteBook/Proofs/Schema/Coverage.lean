import RouteBook.Schema.Fields
import RouteBook.Proofs.Schema.RowPlaces
/-! # Which leaves are documented

A leaf is covered by a row under its own path, or under the path of an array from which layers of
arrays alone lead down to it, since the type of such a row says what the leaf is.

Take the way to a leaf apart into a *trunk*, which does not end in an element, and the layers of
arrays behind it.  The node at the end of the trunk is the root or a field.  If it has a path then it
has a row of its own, which covers the leaf (`own_mem_rowsUnder`).  Without a path there is a row for a
scalar and for an array of scalars, but none for an array of arrays, whose elements have no rows either:
a leaf below two or more layers is lost (`rowsUnder_of_layers`).  So a leaf is covered if its trunk has
a path or there is no more than one layer, and where keys are names only then (`leaf_isCovered`).
-/
namespace RouteBook
namespace Schema
open Step

variable {s leaf : Schema} {path : String} {layers : Nat}

/-- **A covered leaf**: a row has the path of the way to it as its key, or the path of an array from
which only elements lead to it. -/
def IsCovered (s : Schema) (way : List Step) : Prop :=
  ∃ row ∈ s.rows, row.key = s.pathOf way ∨
    ∃ trunk layers, way = trunk ++ List.replicate (layers + 1) .element ∧ row.key = s.pathOf trunk

/-! ### Layers of arrays -/

/-- An array with a row of its own covers what is below its layers. -/
theorem isCovered_of_row {trunk : List Step} {row : Row} (hrow : row ∈ s.rows)
    (hkey : row.key = s.pathOf trunk) (layers : Nat) :
    s.IsCovered (trunk ++ List.replicate layers .element) := by
  cases layers with
  | zero =>
    refine ⟨row, hrow, .inl ?_⟩
    rw [List.replicate_zero, List.append_nil]
    exact hkey
  | succ layers => exact ⟨row, hrow, .inr ⟨trunk, layers, rfl, hkey⟩⟩

/-- A scalar has a row, and so has an array of scalars, with a path or without one. -/
theorem row_of_layers (h : s.At (List.replicate layers .element) leaf) (scalar : leaf.isScalar = true)
    (available : s.isAvailable = true) (reach : path ≠ "" ∨ layers ≤ 1) :
    ∃ row ∈ s.rowsUnder path false,
      row.key = path ∨ layers = 1 ∧ row.key = pathFrom path [.element] := by
  by_cases root : path = ""
  · subst root
    have few : layers ≤ 1 := reach.resolve_left fun ne => ne rfl
    have shown : s.label.isAvailable = true := available
    rcases Nat.le_one_iff_eq_zero_or_eq_one.mp few with rfl | rfl
    · cases h.eq_of_nil
      cases s with
      | primitive label sample | text label sample =>
        rw [Schema.label] at shown
        exact ⟨.ofLabel "" label, by simp [rowsUnder, shown], .inl rfl⟩
      | array | object => cases scalar
    · cases h with
      | element rest =>
        rename_i label element
        cases rest.eq_of_nil
        rw [Schema.label] at shown
        exact ⟨.ofLabel "[]" label, by simp [rowsUnder, shown, scalar], .inr ⟨rfl, rfl⟩⟩
  · exact ⟨_, own_mem_rowsUnder available root, .inl rfl⟩

/-- The element of an array has no rows if it comes down to a scalar through arrays alone. -/
theorem rowsUnder_of_layers (h : s.At (List.replicate layers .element) leaf)
    (scalar : leaf.isScalar = true) (ne : path ≠ "") : s.rowsUnder path true = [] := by
  induction layers generalizing s path with
  | zero =>
    cases h.eq_of_nil
    cases leaf with
    | primitive | text => simp [rowsUnder]
    | array | object => cases scalar
  | succ layers ih =>
    cases h with
    | element rest =>
      have longer : path ++ "[]" ≠ "" := by simp
      simp [rowsUnder, ne, ih rest longer]

/-- **An array of arrays of scalars has no row** if it has no path. -/
theorem rowsUnder_empty_of_layers (h : s.At (List.replicate (layers + 2) .element) leaf)
    (scalar : leaf.isScalar = true) : s.rowsUnder "" false = [] := by
  cases h with
  | element rest =>
    rename_i label element
    have parts : element.isScalar = false := by
      cases rest
      rfl
    have inside : element.rowsUnder "[]" true = [] := rowsUnder_of_layers rest scalar (by decide)
    simp [rowsUnder, parts, inside]

/-! ### Leaves of a whole schema -/

/-- A node that the walk over the rows comes to covers the scalars below its layers. -/
theorem isCovered_of_subset {node : Schema} {trunk : List Step}
    (visited : node.rowsUnder (s.pathOf trunk) false ⊆ s.rows)
    (h : node.At (List.replicate layers .element) leaf) (scalar : leaf.isScalar = true)
    (available : node.isAvailable = true) (reach : s.pathOf trunk ≠ "" ∨ layers ≤ 1) :
    s.IsCovered (trunk ++ List.replicate layers .element) := by
  obtain ⟨row, hrow, hkey⟩ := row_of_layers h scalar available reach
  rcases hkey with hkey | ⟨rfl, hkey⟩
  · exact isCovered_of_row (visited hrow) hkey layers
  · refine ⟨row, visited hrow, .inl ?_⟩
    rw [hkey, pathOf, pathOf, pathFrom_append]
    rfl

/-- **Which leaves are documented.**  Let all nodes of a schema be available.  A scalar below some
layers of arrays is covered by a row if the node around which the layers lie has a path, or if there
is no more than one layer; and if the keys are names, then it is covered in no other case. -/
theorem leaf_isCovered (available : s.all isAvailable = true) {trunk : List Step}
    (outermost : trunk.getLast? ≠ some .element)
    (h : s.At (trunk ++ List.replicate layers .element) leaf) (scalar : leaf.isScalar = true) :
    (s.pathOf trunk ≠ "" ∨ layers ≤ 1 →
      s.IsCovered (trunk ++ List.replicate layers .element)) ∧
    (s.all hasNames = true → s.IsCovered (trunk ++ List.replicate layers .element) →
      s.pathOf trunk ≠ "" ∨ layers ≤ 1) := by
  constructor
  · intro reach
    obtain ⟨node, htrunk, hleaf⟩ := h.exists_of_append
    have shown := test_of_all (htrunk.all available)
    refine isCovered_of_subset ?_ hleaf scalar shown reach
    rw [(rows_eq_rowsUnder s).1]
    rcases List.eq_nil_or_concat trunk with rfl | ⟨way, step, rfl⟩
    · cases htrunk.eq_of_nil
      exact fun _ hrow => hrow
    · rw [List.concat_eq_append] at htrunk outermost ⊢
      cases step with
      | field key => exact htrunk.rowsUnder_subset available _ _
      | element => exact absurd List.getLast?_concat outermost
  · intro names covered
    by_cases few : layers ≤ 1
    · exact .inr few
    · refine .inl fun pathless => ?_
      obtain ⟨middle, htrunk, -⟩ := h.exists_of_append
      -- only the root has no path, so the layers lie around the whole schema
      obtain ⟨root, rfl⟩ := (pathFrom_eq_empty_iff (htrunk.isPlain names)).mp pathless
      obtain ⟨more, rfl⟩ := Nat.exists_eq_add_of_le' (show 2 ≤ layers by omega)
      obtain ⟨row, hrow, -⟩ := covered
      rw [(rows_eq_rowsUnder s).1, root, rowsUnder_empty_of_layers h scalar] at hrow
      exact absurd hrow List.not_mem_nil

/-- Rows of numbers. -/
def grid : Schema := .ofElement (.ofElement (.ofPrimitive "u32" (.ofInt 0)))

/-- A record that keeps a grid. -/
def board : Schema := (Schema.emptyObject "Board").addField (grid.withKey "cells")

/-- The numbers of a board are covered by the row of its grid. -/
theorem board_cells_covered : board.IsCovered ([.field "cells"] ++ List.replicate 2 .element) := by
  have numbers : board.At ([.field "cells"] ++ List.replicate 2 .element)
      (.ofPrimitive "u32" (.ofInt 0)) :=
    .field List.mem_cons_self (.element (.element (.here _)))
  have covered := leaf_isCovered (s := board) rfl (by decide) numbers rfl
  exact covered.1 (.inl (by decide))

/-- **Not every leaf is documented**: nothing says that a grid alone holds numbers. -/
theorem grid_not_covered : ¬ ∀ (s : Schema), s.all isAvailable = true →
    ∀ way leaf, s.At way leaf → leaf.isScalar = true → s.IsCovered way := by
  intro h
  have numbers : grid.At (List.replicate 2 .element) (.ofPrimitive "u32" (.ofInt 0)) :=
    .element (.element (.here _))
  obtain ⟨row, hrow, -⟩ := h grid rfl _ _ numbers rfl
  rw [(rows_eq_rowsUnder grid).1] at hrow
  exact absurd hrow List.not_mem_nil

end Schema
end RouteBook
