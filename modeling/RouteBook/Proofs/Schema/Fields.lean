import RouteBook.Schema.Fields
/-! # Laws of fields

What is under a key after a field has been added to an object, and after one object has been merged
into another.  Both keep the keys apart and in order, new ones last.  Adding replaces what is under
the key; merging lets it stay, up to what it leaves open (`complete`).
-/
namespace RouteBook

/-! ### Adding -/

theorem nodup_keys_insertPair {α : Type} {key : String} {value : α} {ps : List (String × α)}
    (distinct : (ps.map Prod.fst).Nodup) : ((insertPair key value ps).map Prod.fst).Nodup := by
  rw [keys_insertPair]
  split
  · exact distinct
  · rename_i new
    refine List.nodup_append.mpr ⟨distinct, List.pairwise_singleton _ _, ?_⟩
    intro k hk k' hk' same
    rw [List.mem_singleton.mp hk'] at same
    exact new (same ▸ hk)

theorem mem_keys_insertPair_iff {α : Type} {key k : String} {value : α} {ps : List (String × α)} :
    k ∈ (insertPair key value ps).map Prod.fst ↔ k ∈ ps.map Prod.fst ∨ k = key := by
  rw [keys_insertPair]
  split
  · rename_i known
    constructor
    · exact .inl
    · rintro (hk | rfl)
      · exact hk
      · exact known
  · rw [List.mem_append, List.mem_singleton]

/-- Keys that differ find what stands under them. -/
theorem lookup_of_mem {α : Type} {key : String} {value : α} {ps : List (String × α)}
    (distinct : (ps.map Prod.fst).Nodup) (h : (key, value) ∈ ps) : ps.lookup key = some value := by
  induction ps with
  | nil => exact absurd h List.not_mem_nil
  | cons p ps ih =>
    obtain ⟨k, v⟩ := p
    obtain ⟨new, distinct⟩ := List.nodup_cons.mp distinct
    rw [List.lookup_cons]
    rcases List.mem_cons.mp h with he | h
    · cases he
      rw [beq_self_eq_true]
    · have known : key ∈ ps.map Prod.fst := List.mem_map_of_mem h
      have apart : key ≠ k := fun he => new (he ▸ known)
      rw [beq_false_of_ne apart]
      exact ih distinct h

namespace Schema

/-- What is added to an object stands under the key that it carries. -/
theorem addField_object {label : Label} {isRecursive : Bool} {fields : List (String × Schema)}
    {field : Schema} {key : String} (h : field.label.key = some key) :
    (object label isRecursive fields).addField field =
      .object label isRecursive (insertPair key field fields) := by
  simp [addField, h]

/-! ### Merging -/

theorem fields?_eq_none {s : Schema} (h : s.isObject = false) : s.fields? = none := by
  cases s with
  | object => cases h
  | primitive | text | array => rfl

theorem exists_fields?_of_isObject {s : Schema} (h : s.isObject = true) :
    ∃ fields, s.fields? = some fields := by
  cases s with
  | object label isRecursive fields => exact ⟨fields, rfl⟩
  | primitive | text | array => cases h

/-- What is no object has no fields to merge. -/
theorem merge_object (label : Label) (isRecursive : Bool) (fields : List (String × Schema))
    (other : Schema) : (object label isRecursive fields).merge other =
      .object label isRecursive (mergeFields fields (other.fields?.getD [])) := by
  cases other <;> rfl

variable {fields others : List (String × Schema)} {new : String × Schema}

/-- The keys after one more field has been merged in: the old ones in their order, then a key that
was not there. -/
theorem keys_mergeField (fields : List (String × Schema)) (new : String × Schema) :
    (mergeField fields new).map Prod.fst =
      if new.1 ∈ fields.map Prod.fst then fields.map Prod.fst
      else fields.map Prod.fst ++ [new.1] := by
  induction fields with
  | nil => rfl
  | cons f fields ih =>
    obtain ⟨key, field⟩ := f
    unfold mergeField
    by_cases h : key = new.1
    · simp [h]
    · have other : new.1 ≠ key := fun he => h he.symm
      simp only [h, if_false, List.map_cons, ih, List.mem_cons, other, false_or]
      split <;> rfl

theorem mem_keys_mergeField_iff {k : String} :
    k ∈ (mergeField fields new).map Prod.fst ↔ k ∈ fields.map Prod.fst ∨ k = new.1 := by
  rw [keys_mergeField, ← keys_insertPair new.1 new.2]
  exact mem_keys_insertPair_iff

/-- **The keys of a merge** are those of both objects. -/
theorem mem_keys_mergeFields_iff {k : String} :
    k ∈ (mergeFields fields others).map Prod.fst ↔
      k ∈ fields.map Prod.fst ∨ k ∈ others.map Prod.fst := by
  induction others generalizing fields with
  | nil => simp [mergeFields]
  | cons new others ih =>
    rw [mergeFields, List.foldl_cons, ← mergeFields, ih, mem_keys_mergeField_iff, List.map_cons,
      List.mem_cons, or_assoc]

theorem nodup_keys_mergeField (distinct : (fields.map Prod.fst).Nodup) :
    ((mergeField fields new).map Prod.fst).Nodup := by
  rw [keys_mergeField, ← keys_insertPair new.1 new.2]
  exact nodup_keys_insertPair distinct

/-- Merging keeps the keys apart. -/
theorem nodup_keys_mergeFields (distinct : (fields.map Prod.fst).Nodup) :
    ((mergeFields fields others).map Prod.fst).Nodup := by
  induction others generalizing fields with
  | nil => exact distinct
  | cons new others ih => exact ih (nodup_keys_mergeField distinct)

/-- A field that is there stays, completed by the new one if they share the key. -/
theorem lookup_mergeField {k : String} {field : Schema} (h : fields.lookup k = some field) :
    (mergeField fields new).lookup k =
      some (if k = new.1 then complete field new.2 else field) := by
  induction fields with
  | nil => cases h
  | cons f fields ih =>
    obtain ⟨key, first⟩ := f
    rw [List.lookup_cons] at h
    unfold mergeField
    by_cases hk : k = key
    · subst hk
      rw [beq_self_eq_true] at h
      obtain rfl := Option.some.inj h
      by_cases hnew : k = new.1
      · rw [if_pos hnew, if_pos hnew, List.lookup_cons, beq_self_eq_true]
      · rw [if_neg hnew, if_neg hnew, List.lookup_cons, beq_self_eq_true]
    · have apart : (k == key) = false := beq_false_of_ne hk
      rw [apart] at h
      by_cases hnew : key = new.1
      · have other : k ≠ new.1 := fun he => hk (he.trans hnew.symm)
        rw [if_pos hnew, if_neg other, List.lookup_cons, apart]
        exact h
      · rw [if_neg hnew, List.lookup_cons, apart]
        exact ih h

/-- What holds of the field under a key holds of the one after a merge, if completing keeps it. -/
theorem lookup_mergeFields {motive : Schema → Prop} {k : String}
    (completed : ∀ field other, motive field → motive (complete field other))
    (h : ∃ field, fields.lookup k = some field ∧ motive field) :
    ∃ field, (mergeFields fields others).lookup k = some field ∧ motive field := by
  induction others generalizing fields with
  | nil => exact h
  | cons new others ih =>
    obtain ⟨field, hlookup, hfield⟩ := h
    refine ih ⟨_, lookup_mergeField hlookup, ?_⟩
    split
    · exact completed field new.2 hfield
    · exact hfield

end Schema
end RouteBook
