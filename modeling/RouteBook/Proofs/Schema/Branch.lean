import RouteBook.Schema.Fields
/-! # Branches of a schema

A schema as a tree: the parts of an array are its element, those of an object its fields.  A
*branch* is a path from the root down to a node without parts.

A node is *open* if a type was taken apart for it: an array, or an object that is not a recursive
marker.  `IsNested n` says of a branch that at most `n` open nodes stand on it, and below them no
more than a scalar or a marker.
-/
namespace RouteBook
namespace Schema

/-- The nodes directly below the root. -/
def parts : Schema → List Schema
  | .array _ element => [element]
  | .object _ _ fields => fields.map Prod.snd
  | _ => []

/-- A marker for a type that is being described already, or that is nested too deep. -/
def isMarker : Schema → Bool
  | .object _ isRecursive _ => isRecursive
  | _ => false

/-- An object that is not a marker. -/
def isExpanded : Schema → Bool
  | .object _ isRecursive _ => !isRecursive
  | _ => false

def isOpen (s : Schema) : Bool := s.isArray || s.isExpanded

theorem isExpanded_eq_false_of_isArray {s : Schema} (h : s.isArray = true) :
    s.isExpanded = false := by
  cases s with
  | array => rfl
  | primitive => rfl
  | text => rfl
  | object => cases h

/-- **The paths from the root to a node without parts**, as the nodes on them. -/
inductive Branch : Schema → List Schema → Prop
  | leaf {s : Schema} (hs : s.parts = []) : Branch s [s]
  | part {s p : Schema} {path : List Schema} (hp : p ∈ s.parts) (rest : Branch p path) :
      Branch s (s :: path)

/-- A branch with at most `n` open nodes, and at most one further node: a scalar or a marker. -/
def IsNested (n : Nat) (path : List Schema) : Prop :=
  ∃ opened last, path = opened ++ last ∧ opened.length ≤ n ∧ (∀ s ∈ opened, s.isOpen = true) ∧
    last.length ≤ 1 ∧ ∀ s ∈ last, s.isScalar = true ∨ s.isMarker = true

/-- The only branch of a node without parts is the node. -/
theorem Branch.eq_of_parts {s : Schema} {path : List Schema} (h : Branch s path)
    (hs : s.parts = []) : path = [s] := by
  cases h with
  | leaf _ => rfl
  | part hp _ =>
    rw [hs] at hp
    exact absurd hp List.not_mem_nil

theorem isNested_last {s : Schema} (n : Nat) (hs : s.isScalar = true ∨ s.isMarker = true) :
    IsNested n [s] := by
  refine ⟨[], [s], rfl, Nat.zero_le n, fun _ h => absurd h List.not_mem_nil, Nat.le_refl 1, ?_⟩
  intro p hp
  rw [List.mem_singleton.mp hp]
  exact hs

theorem isNested_nil : IsNested 0 [] :=
  ⟨[], [], rfl, Nat.le_refl 0, fun _ h => absurd h List.not_mem_nil, Nat.zero_le 1,
    fun _ h => absurd h List.not_mem_nil⟩

/-- One open node on top. -/
theorem IsNested.cons {n : Nat} {s : Schema} {path : List Schema} (h : IsNested n path)
    (hs : s.isOpen = true) : IsNested (n + 1) (s :: path) := by
  obtain ⟨opened, last, rfl, hlength, hopened, hlast⟩ := h
  refine ⟨s :: opened, last, rfl, ?_, ?_, hlast⟩
  · rw [List.length_cons]
    omega
  · intro p hp
    rcases List.mem_cons.mp hp with rfl | hp
    · exact hs
    · exact hopened p hp

theorem IsNested.mono {n m : Nat} {path : List Schema} (h : IsNested n path) (hnm : n ≤ m) :
    IsNested m path := by
  obtain ⟨opened, last, he, hlength, hrest⟩ := h
  exact ⟨opened, last, he, by omega, hrest⟩

end Schema
end RouteBook
