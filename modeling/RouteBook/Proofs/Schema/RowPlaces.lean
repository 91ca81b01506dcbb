import Mathlib.Data.List.Nodup
import RouteBook.Proofs.Schema.Rows
import RouteBook.Proofs.Schema.Places
/-! # Where rows come from

Every row of a schema belongs to a node, and its key is the path of the way to that node
(`rowOf_of_mem_rows`).  There is one exception: an array without a path of its own stands under
the path of its element, if it is an array of scalars.

The other way round, a field has a row of its own wherever it stands, since a field always has a path
(`row_of_field`): the walk over the rows comes to it and goes on from it as from a root
(`At.rowsUnder_subset`).
-/
namespace RouteBook
namespace Schema
open Step

variable {s node : Schema} {way : List Step} {path : String} {isElement : Bool} {row : Row}

theorem mem_rowsOfFields_iff {fields : List (String × Schema)} :
    row ∈ rowsOfFields path fields ↔
      ∃ f ∈ fields, row ∈ f.2.rowsUnder (fieldPath path f.1) false := by
  induction fields with
  | nil => simp [rowsOfFields]
  | cons f fields ih => simp [rowsOfFields, ih]

/-! ### From a row to its node -/

/-- **The rows that a node can have**: one under its path, and for an array also one under the path of
its element. -/
inductive RowOf (path : String) (s : Schema) : Row → Prop
  | own (way : List Step) {node : Schema} (hnode : s.At way node) :
      RowOf path s (.ofLabel (pathFrom path way) node.label)
  | ofElement (way : List Step) {label : Label} {element : Schema}
      (hnode : s.At way (.array label element)) :
      RowOf path s (.ofLabel (pathFrom path (way ++ [.element])) label)

theorem RowOf.element {label : Label} {element : Schema} (h : RowOf (path ++ "[]") element row) :
    RowOf path (.array label element) row := by
  cases h with
  | own way hnode => exact .own (.element :: way) (.element hnode)
  | ofElement way hnode => exact .ofElement (.element :: way) (.element hnode)

theorem RowOf.field {label : Label} {isRecursive : Bool} {fields : List (String × Schema)}
    {f : String × Schema} (hf : f ∈ fields) (h : RowOf (fieldPath path f.1) f.2 row) :
    RowOf path (.object label isRecursive fields) row := by
  cases h with
  | own way hnode => exact .own (.field f.1 :: way) (.field hf hnode)
  | ofElement way hnode => exact .ofElement (.field f.1 :: way) (.field hf hnode)

theorem rowOf_of_mem_rowsUnder (h : row ∈ s.rowsUnder path isElement) : RowOf path s row := by
  induction s using byParts generalizing path isElement with
  | primitive label sample | text label sample =>
    rw [rowsUnder] at h
    split at h
    · rw [List.mem_singleton.mp h]
      exact .own [] (.here _)
    · exact absurd h List.not_mem_nil
  | array label element ih =>
    rw [rowsUnder] at h
    split at h
    · rcases List.mem_append.mp h with h | h
      · split at h
        · rename_i root
          split at h
          · rw [List.mem_singleton.mp h, root]
            exact .ofElement [] (.here _)
          · exact absurd h List.not_mem_nil
        · split at h
          · exact absurd h List.not_mem_nil
          · rw [List.mem_singleton.mp h]
            exact .own [] (.here _)
      · split at h
        · exact absurd h List.not_mem_nil
        · exact (ih h).element
    · exact absurd h List.not_mem_nil
  | object label isRecursive fields ih =>
    rw [rowsUnder] at h
    split at h
    · rcases List.mem_append.mp h with h | h
      · split at h
        · exact absurd h List.not_mem_nil
        · rw [List.mem_singleton.mp h]
          exact .own [] (.here _)
      · obtain ⟨f, hf, hrow⟩ := mem_rowsOfFields_iff.mp h
        exact (ih f hf hrow).field hf
    · exact absurd h List.not_mem_nil

/-- **A row belongs to a node**, under the path of the way to it or to its element. -/
theorem rowOf_of_mem_rows (h : row ∈ s.rows) : RowOf (s.label.key.getD "") s row := by
  rw [(rows_eq_rowsUnder s).1] at h
  exact rowOf_of_mem_rowsUnder h

/-- The key of a row is the path of a way to a node. -/
theorem RowOf.exists_way (h : RowOf path s row) :
    ∃ way node, s.At way node ∧ row.key = pathFrom path way := by
  cases h with
  | own way hnode => exact ⟨way, _, hnode, rfl⟩
  | ofElement way hnode => exact ⟨_, _, hnode.append (.element (.here _)), rfl⟩

/-! ### From a field to its row -/

/-- The walk over the rows comes to every field, and goes on from it as from a root. -/
theorem At.rowsUnder_subset {key : String} (h : s.At (way ++ [.field key]) node)
    (available : s.all isAvailable = true) (path : String) (isElement : Bool) :
    node.rowsUnder (pathFrom path (way ++ [.field key])) false ⊆ s.rowsUnder path isElement := by
  induction way generalizing s path isElement with
  | nil =>
    cases h with
    | field hfield rest =>
      cases rest.eq_of_nil
      have shown := test_of_all available
      intro row hrow
      rw [rowsUnder, if_pos (by exact shown)]
      exact List.mem_append_right _ (mem_rowsOfFields_iff.mpr ⟨_, hfield, hrow⟩)
  | cons step way ih =>
    rw [List.cons_append] at h
    have shown := test_of_all available
    cases h with
    | element rest =>
      rename_i label element
      have within := ih rest (At.all (.element (.here _)) available)
      have parts : element.isScalar = false := by
        cases way <;> cases rest <;> rfl
      intro row hrow
      rw [rowsUnder, if_pos (by exact shown), parts]
      exact List.mem_append_right _ (within _ _ hrow)
    | field hfield rest =>
      have within := ih rest (At.all (.field hfield (.here _)) available)
      intro row hrow
      rw [rowsUnder, if_pos (by exact shown)]
      exact List.mem_append_right _ (mem_rowsOfFields_iff.mpr ⟨_, hfield, within _ _ hrow⟩)

/-- A node with a path has a row of its own, unless it is an element. -/
theorem own_mem_rowsUnder (available : s.isAvailable = true) (ne : path ≠ "") :
    .ofLabel path s.label ∈ s.rowsUnder path false := by
  have shown : s.label.isAvailable = true := available
  cases s <;> rw [label] at shown <;> simp [rowsUnder, shown, ne, label]

/-- **A field has a row of its own**, unless its path is empty. -/
theorem row_of_field {key : String} (h : s.At (way ++ [.field key]) node)
    (available : s.all isAvailable = true) (ne : s.pathOf (way ++ [.field key]) ≠ "") :
    .ofLabel (s.pathOf (way ++ [.field key])) node.label ∈ s.rows := by
  rw [(rows_eq_rowsUnder s).1]
  have own := own_mem_rowsUnder (test_of_all (h.all available)) ne
  exact h.rowsUnder_subset available _ _ own

/-! ### Keys of rows -/

/-- The keys of the rows of one node and of what is below it differ, if those below do. -/
theorem nodup_keys_append (path : String) {own below : List Row}
    (hown : own = [] ∨ ∃ row, own = [row] ∧ row.key = path) (hbelow : (below.map Row.key).Nodup)
    (deeper : ∀ row ∈ below, ∃ step way, (∀ next ∈ step :: way, next.isPlain = true) ∧
      row.key = pathFrom path (step :: way)) : ((own ++ below).map Row.key).Nodup := by
  rcases hown with rfl | ⟨row, rfl, hkey⟩
  · exact hbelow
  · refine List.nodup_cons.mpr ⟨?_, hbelow⟩
    intro hmem
    obtain ⟨other, hother, same⟩ := List.mem_map.mp hmem
    obtain ⟨step, way, plain, hother⟩ := deeper other hother
    rw [hother, hkey] at same
    have none : ∀ next ∈ ([] : List Step), next.isPlain = true :=
      fun _ h => absurd h List.not_mem_nil
    exact List.cons_ne_nil step way (pathFrom_inj path plain none same)

/-- The key of a row below a node, as the path of a way with names. -/
theorem exists_plain_of_mem_rowsUnder (h : row ∈ s.rowsUnder path isElement)
    (names : s.all hasNames = true) :
    ∃ way, (∀ step ∈ way, step.isPlain = true) ∧ row.key = pathFrom path way := by
  obtain ⟨way, node, hnode, hkey⟩ := (rowOf_of_mem_rowsUnder h).exists_way
  exact ⟨way, hnode.isPlain names, hkey⟩

/-- The keys of the rows of several fields differ if those of each field do. -/
theorem nodup_keys_rowsOfFields {fields : List (String × Schema)}
    (distinct : (fields.map Prod.fst).Nodup) (names : ∀ f ∈ fields, isName f.1 = true)
    (below : ∀ f ∈ fields, f.2.all hasNames = true)
    (each : ∀ f ∈ fields, ((f.2.rowsUnder (fieldPath path f.1) false).map Row.key).Nodup) :
    ((rowsOfFields path fields).map Row.key).Nodup := by
  induction fields with
  | nil => exact List.nodup_nil
  | cons f fields ih =>
    obtain ⟨new, distinct⟩ := List.nodup_cons.mp distinct
    have rest := ih distinct (fun g hg => names g (List.mem_cons_of_mem _ hg))
      (fun g hg => below g (List.mem_cons_of_mem _ hg))
      (fun g hg => each g (List.mem_cons_of_mem _ hg))
    rw [rowsOfFields, List.map_append]
    refine List.nodup_append.mpr ⟨each f List.mem_cons_self, rest, ?_⟩
    intro key hkey other hother same
    obtain ⟨row, hrow, rfl⟩ := List.mem_map.mp hkey
    obtain ⟨row', hrow', rfl⟩ := List.mem_map.mp hother
    obtain ⟨g, hg, hrow'⟩ := mem_rowsOfFields_iff.mp hrow'
    have hg' : g ∈ f :: fields := List.mem_cons_of_mem _ hg
    obtain ⟨way, plain, hway⟩ := exists_plain_of_mem_rowsUnder hrow (below f List.mem_cons_self)
    obtain ⟨way', plain', hway'⟩ := exists_plain_of_mem_rowsUnder hrow' (below g hg')
    -- both keys are paths from here, and the first step already tells them apart
    have first : ∀ step ∈ Step.field f.1 :: way, step.isPlain = true :=
      List.forall_mem_cons.mpr ⟨names f List.mem_cons_self, plain⟩
    have first' : ∀ step ∈ Step.field g.1 :: way', step.isPlain = true :=
      List.forall_mem_cons.mpr ⟨names g hg', plain'⟩
    have ways := pathFrom_inj path first first' (by
      rw [pathFrom_cons, pathFrom_cons]
      exact hway.symm.trans (same.trans hway'))
    have keys : f.1 = g.1 := Step.field.inj (List.cons.inj ways).1
    exact new (keys ▸ List.mem_map_of_mem hg)

/-- **Rows below a path have keys of their own.** -/
theorem nodup_keys_rowsUnder (names : s.all hasNames = true)
    (distinct : s.all hasDistinctKeys = true) (path : String) (isElement : Bool) :
    ((s.rowsUnder path isElement).map Row.key).Nodup := by
  induction s using byParts generalizing path isElement with
  | primitive label sample | text label sample =>
    rw [rowsUnder]
    split <;> simp
  | array label element ih =>
    rw [rowsUnder]
    split
    · cases scalar : element.isScalar with
      | true =>
        by_cases root : path = "" <;> cases isElement <;> simp [root]
      | false =>
        have inside := At.all (.element (.here _)) names
        refine nodup_keys_append path ?_
          (ih inside (At.all (.element (.here _)) distinct) _ _) ?_
        · by_cases root : path = "" <;> cases isElement <;> simp [root, Row.ofLabel]
        · intro row hrow
          obtain ⟨way, plain, hkey⟩ := exists_plain_of_mem_rowsUnder hrow inside
          exact ⟨.element, way, List.forall_mem_cons.mpr ⟨rfl, plain⟩, hkey⟩
    · exact List.nodup_nil
  | object label isRecursive fields ih =>
    have inside : ∀ f ∈ fields, f.2.all hasNames = true :=
      fun f hf => At.all (.field hf (.here _)) names
    have keys : ∀ f ∈ fields, isName f.1 = true := by
      intro f hf
      have plain := At.isPlain (.field hf (.here _)) names
      exact plain _ List.mem_cons_self
    have apart : (fields.map Prod.fst).Nodup := hasDistinctKeys_iff.mp (test_of_all distinct)
    rw [rowsUnder]
    split
    · refine nodup_keys_append path ?_ (nodup_keys_rowsOfFields apart keys inside ?_) ?_
      · split <;> simp [Row.ofLabel]
      · exact fun f hf => ih f hf (inside f hf) (At.all (.field hf (.here _)) distinct) _ _
      · intro row hrow
        obtain ⟨f, hf, hrow⟩ := mem_rowsOfFields_iff.mp hrow
        obtain ⟨way, plain, hkey⟩ := exists_plain_of_mem_rowsUnder hrow (inside f hf)
        exact ⟨.field f.1, way, List.forall_mem_cons.mpr ⟨keys f hf, plain⟩, hkey⟩
    · exact List.nodup_nil

/-- **The rows of a schema have keys of their own**, if the keys of its fields are names and no two
fields of an object have one key. -/
theorem nodup_keys_rows (names : s.all hasNames = true) (distinct : s.all hasDistinctKeys = true) :
    (s.rows.map Row.key).Nodup := by
  rw [(rows_eq_rowsUnder s).1]
  exact nodup_keys_rowsUnder names distinct _ _

end Schema
end RouteBook
