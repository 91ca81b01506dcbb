import RouteBook.Decimal.Binary64
/-! # JSON values

A JSON value whose objects keep the order in which their members were written.  A number is
either an integer or a double; the two are never confused, so `1` and `1.0` are two values.
-/
namespace RouteBook

/-- A JSON number.  Integers are those that fit in 64 bits, with or without a sign. -/
inductive Number where
  | int (value : Int)
  | double (value : Binary64)
  deriving DecidableEq, Repr, Inhabited

inductive Json where
  | null
  | bool (value : Bool)
  | number (value : Number)
  | text (value : String)
  | array (items : List Json)
  | object (members : List (String × Json))
  deriving Repr, Inhabited

/-- Sets a key in a list of pairs: an existing key keeps its place, a new one goes last. -/
def insertPair {α : Type} (key : String) (value : α) : List (String × α) → List (String × α)
  | [] => [(key, value)]
  | (k, v) :: rest =>
    if k = key then (k, value) :: rest else (k, v) :: insertPair key value rest

/-- What is found under a key stands there. -/
theorem mem_of_lookup {α : Type} {key : String} {value : α} {ps : List (String × α)}
    (h : ps.lookup key = some value) : (key, value) ∈ ps := by
  obtain ⟨before, after, rfl, -⟩ := List.lookup_eq_some_iff.mp h
  exact List.mem_append_right _ List.mem_cons_self

theorem lookup_insertPair_self {α : Type} (key : String) (value : α) (ps : List (String × α)) :
    (insertPair key value ps).lookup key = some value := by
  induction ps with
  | nil => simp [insertPair]
  | cons p ps ih =>
    obtain ⟨k, v⟩ := p
    unfold insertPair
    split
    · rename_i h
      simp [h]
    · rename_i h
      have : (key == k) = false := by simpa using fun hk => h hk.symm
      simp [List.lookup_cons, this, ih]

theorem lookup_insertPair_of_ne {α : Type} {key other : String} (h : other ≠ key) (value : α)
    (ps : List (String × α)) : (insertPair key value ps).lookup other = ps.lookup other := by
  have apart : (other == key) = false := beq_false_of_ne h
  induction ps with
  | nil => rw [insertPair, List.lookup_cons, apart]
  | cons p ps ih =>
    obtain ⟨k, v⟩ := p
    unfold insertPair
    split
    · rename_i same
      subst same
      rw [List.lookup_cons, List.lookup_cons, apart]
    · rw [List.lookup_cons, List.lookup_cons, ih]

/-- The keys after `insertPair`: the old ones in their order, then a key that was not there. -/
theorem keys_insertPair {α : Type} (key : String) (value : α) (ps : List (String × α)) :
    (insertPair key value ps).map Prod.fst =
      if key ∈ ps.map Prod.fst then ps.map Prod.fst else ps.map Prod.fst ++ [key] := by
  induction ps with
  | nil => simp [insertPair]
  | cons p ps ih =>
    obtain ⟨k, v⟩ := p
    unfold insertPair
    split
    · rename_i h
      simp [h]
    · rename_i h
      have hk : key ≠ k := fun e => h e.symm
      simp only [List.map_cons, ih, List.mem_cons, hk, false_or]
      split <;> simp

/-- A key that is not there goes last. -/
theorem insertPair_of_notMem {α : Type} {key : String} (value : α) {ps : List (String × α)}
    (h : key ∉ ps.map Prod.fst) : insertPair key value ps = ps ++ [(key, value)] := by
  induction ps with
  | nil => rfl
  | cons p ps ih =>
    obtain ⟨k, v⟩ := p
    rw [List.map_cons, List.mem_cons, not_or] at h
    have hk : k ≠ key := fun e => h.1 e.symm
    rw [insertPair, if_neg hk, ih h.2, List.cons_append]

/-- What holds of every pair before and of the new one holds of every pair after `insertPair`. -/
theorem forall_insertPair {α : Type} {motive : String × α → Prop} {key : String} {value : α}
    {ps : List (String × α)} (old : ∀ p ∈ ps, motive p) (new : motive (key, value)) :
    ∀ p ∈ insertPair key value ps, motive p := by
  induction ps with
  | nil => simpa [insertPair] using new
  | cons p ps ih =>
    obtain ⟨k, v⟩ := p
    have rest := ih fun q hq => old q (List.mem_cons_of_mem _ hq)
    unfold insertPair
    split
    · rename_i h
      subst h
      intro q hq
      rcases List.mem_cons.mp hq with rfl | hq
      · exact new
      · exact old q (List.mem_cons_of_mem _ hq)
    · intro q hq
      rcases List.mem_cons.mp hq with rfl | hq
      · exact old _ List.mem_cons_self
      · exact rest q hq

namespace Json

/-- The number that an integer is. -/
def ofInt (n : Int) : Json := .number (.int n)

/-- The value of a member of an object. -/
def member? (key : String) : Json → Option Json
  | .object members => members.lookup key
  | _ => none

/-- The text of a JSON text value. -/
def text? : Json → Option String
  | .text s => some s
  | _ => none

end Json
end RouteBook
