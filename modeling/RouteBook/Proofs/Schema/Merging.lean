import RouteBook.Proofs.Schema.Fields
import RouteBook.Proofs.Schema.Places
/-! # Merging objects

What one object becomes when another one is merged into it, key by key (`IsMerge`).  The keys of the
first come first, in their order, and then the further keys of the second in theirs; what stands
under a key is what the two objects say about it, the first one before the second.

A merge is settled by its keys (`keys_mergeFields`) and by what stands under each of them
(`lookup_mergeFields_eq`).  So laws of merging are laws of `complete`, read off key by key
(`eq_of_lookup`): merging the same object once more changes nothing, on either side
(`Schema.merge_key_by_key`).
-/
namespace RouteBook

/-! ### Lists of pairs, key by key -/

theorem lookup_eq_none_of_notMem {α : Type} {key : String} {ps : List (String × α)}
    (h : key ∉ ps.map Prod.fst) : ps.lookup key = none := by
  rw [List.lookup_eq_none_iff]
  intro p hp
  refine bne_iff_ne.mpr fun same => h ?_
  rw [same]
  exact List.mem_map_of_mem hp

/-- **Lists of pairs are the same** if their keys are, which are apart, and what stands under each of
them is. -/
theorem eq_of_lookup {α : Type} {ps qs : List (String × α)} (distinct : (ps.map Prod.fst).Nodup)
    (keys : ps.map Prod.fst = qs.map Prod.fst) (agree : ∀ key, ps.lookup key = qs.lookup key) :
    ps = qs := by
  induction ps generalizing qs with
  | nil => exact (List.map_eq_nil_iff.mp keys.symm).symm
  | cons p ps ih =>
    obtain ⟨key, value⟩ := p
    cases qs with
    | nil => cases keys
    | cons q qs =>
      obtain ⟨key', value'⟩ := q
      obtain ⟨rfl, others⟩ : key = key' ∧ ps.map Prod.fst = qs.map Prod.fst := List.cons.inj keys
      obtain ⟨new, distinct⟩ := List.nodup_cons.mp distinct
      have first : value = value' := by
        have h := agree key
        rw [List.lookup_cons, List.lookup_cons, beq_self_eq_true] at h
        exact Option.some.inj h
      have rest : ps = qs := by
        refine ih distinct others fun k => ?_
        by_cases hk : k = key
        · -- the key of the first pair is not among the others
          rw [hk, lookup_eq_none_of_notMem new, lookup_eq_none_of_notMem (others ▸ new)]
        · have h := agree k
          rw [List.lookup_cons, List.lookup_cons, beq_false_of_ne hk] at h
          exact h
      rw [first, rest]

namespace Schema

/-! ### Filling in -/

/-- What a field becomes when another description of it fills in what it leaves open: the remark, and
for a scalar, the fallback. -/
theorem complete_eq (field other : Schema) :
    complete field other = field.mapLabel fun label =>
      { label with
        remark := label.remark.or other.label.remark
        fallback := label.fallback.or
          (if field.isScalar then other.label.fallback else none) } := by
  cases field <;> simp [complete, mapLabel, label, isScalar]

/-- A field fills in nothing that it leaves open itself. -/
theorem complete_self (field : Schema) : complete field field = field := by
  cases field <;> simp [complete, mapLabel, label, isScalar]

/-- What has been filled in already is not filled in again. -/
theorem complete_complete (field other : Schema) :
    complete (complete field other) other = complete field other := by
  cases field <;> simp [complete, mapLabel, label, isScalar, Option.or_assoc]

/-- A field is filled in by what it becomes as by what it is filled in with. -/
theorem complete_absorb (field other : Schema) :
    complete field (complete field other) = complete field other := by
  cases field <;> simp [complete, mapLabel, label, isScalar, ← Option.or_assoc]

/-! ### Keys -/

variable {fields others : List (String × Schema)} {new : String × Schema}

/-- **The keys of a merge**: those of the first object, and the further ones of the second, each in
their order. -/
theorem keys_mergeFields (distinct : (others.map Prod.fst).Nodup) :
    (mergeFields fields others).map Prod.fst = fields.map Prod.fst ++
      (others.map Prod.fst).filter fun key => !(fields.map Prod.fst).contains key := by
  induction others generalizing fields with
  | nil => simp [mergeFields]
  | cons new others ih =>
    obtain ⟨unique, distinct⟩ := List.nodup_cons.mp distinct
    rw [mergeFields, List.foldl_cons, ← mergeFields, ih distinct, keys_mergeField, List.map_cons]
    by_cases known : new.1 ∈ fields.map Prod.fst
    · rw [if_pos known, List.filter_cons_of_neg (by simpa using known)]
    · -- the new key is not among the keys to come, so that it makes no difference for them
      have same : (others.map Prod.fst).filter
            (fun key => !(fields.map Prod.fst ++ [new.1]).contains key) =
          (others.map Prod.fst).filter fun key => !(fields.map Prod.fst).contains key := by
        refine List.filter_congr fun key hkey => ?_
        have apart : key ≠ new.1 := fun he => unique (he ▸ hkey)
        simp [apart]
      rw [if_neg known, same, List.filter_cons_of_pos (by simpa using known), List.append_assoc,
        List.singleton_append]

/-- None of the keys that are known is a further one. -/
theorem filter_new_eq_nil {keys known : List String} (h : keys ⊆ known) :
    (keys.filter fun key => !known.contains key) = [] := by
  rw [List.filter_eq_nil_iff]
  intro key hkey
  simp only [List.contains_eq_mem, h hkey, decide_true, Bool.not_true, Bool.false_eq_true,
    not_false_eq_true]

/-! ### What stands under a key -/

theorem lookup_mergeField_of_none {k : String} (h : fields.lookup k = none) :
    (mergeField fields new).lookup k = [new].lookup k := by
  induction fields with
  | nil => rfl
  | cons f fields ih =>
    obtain ⟨key, field⟩ := f
    rw [List.lookup_cons] at h
    have apart : (k == key) = false := by
      cases hk : k == key with
      | false => rfl
      | true => rw [hk] at h; cases h
    rw [apart] at h
    unfold mergeField
    split
    · rename_i same
      obtain ⟨newKey, newField⟩ := new
      subst same
      rw [List.lookup_cons, apart, List.lookup_cons, apart]
      exact h
    · rw [List.lookup_cons, apart]
      exact ih h

theorem lookup_mergeField_eq (k : String) :
    (mergeField fields new).lookup k =
      Option.merge complete (fields.lookup k) ([new].lookup k) := by
  cases h : fields.lookup k with
  | none =>
    rw [lookup_mergeField_of_none h]
    cases [new].lookup k <;> rfl
  | some field =>
    rw [lookup_mergeField h, List.lookup_cons]
    by_cases same : k = new.1
    · rw [if_pos same, beq_iff_eq.mpr same]
      rfl
    · rw [if_neg same, beq_false_of_ne same]
      rfl

/-- **What stands under a key of a merge** is what the two objects have under it: the field of the
first, which the field of the second fills in. -/
theorem lookup_mergeFields_eq (distinct : (others.map Prod.fst).Nodup) (k : String) :
    (mergeFields fields others).lookup k =
      Option.merge complete (fields.lookup k) (others.lookup k) := by
  induction others generalizing fields with
  | nil => cases h : fields.lookup k <;> exact h
  | cons new others ih =>
    obtain ⟨unique, distinct⟩ := List.nodup_cons.mp distinct
    have split : (new :: others).lookup k = ([new].lookup k).or (others.lookup k) := by
      rw [← List.lookup_append, List.singleton_append]
    rw [mergeFields, List.foldl_cons, ← mergeFields, ih distinct, lookup_mergeField_eq, split]
    by_cases same : k = new.1
    · -- nothing else stands under the key of `new`
      rw [same, lookup_eq_none_of_notMem unique, Option.or_none]
      cases Option.merge complete (fields.lookup new.1) ([new].lookup new.1) <;> rfl
    · have apart : [new].lookup k = none := by
        rw [List.lookup_cons, beq_false_of_ne same]
        rfl
      rw [apart, Option.none_or]
      cases fields.lookup k <;> rfl

/-! ### Laws -/

/-- Merging in the same fields once more changes nothing. -/
theorem mergeFields_mergeFields_self (left : (fields.map Prod.fst).Nodup)
    (right : (others.map Prod.fst).Nodup) :
    mergeFields (mergeFields fields others) others = mergeFields fields others := by
  refine eq_of_lookup (nodup_keys_mergeFields (nodup_keys_mergeFields left)) ?_ fun k => ?_
  · have known : others.map Prod.fst ⊆ (mergeFields fields others).map Prod.fst :=
      fun key hkey => mem_keys_mergeFields_iff.mpr (.inr hkey)
    rw [keys_mergeFields right, filter_new_eq_nil known, List.append_nil]
  · rw [lookup_mergeFields_eq right, lookup_mergeFields_eq right]
    cases fields.lookup k with
    | none => cases others.lookup k with
      | none => rfl
      | some other => exact congrArg some (complete_self other)
    | some field => cases others.lookup k with
      | none => rfl
      | some other => exact congrArg some (complete_complete field other)

/-- What an object has become takes nothing more from what it was before. -/
theorem mergeFields_absorb (left : (fields.map Prod.fst).Nodup)
    (right : (others.map Prod.fst).Nodup) :
    mergeFields fields (mergeFields fields others) = mergeFields fields others := by
  have merged : ((mergeFields fields others).map Prod.fst).Nodup := nodup_keys_mergeFields left
  refine eq_of_lookup (nodup_keys_mergeFields left) ?_ fun k => ?_
  · -- the keys of `fields` in the merge are known, and the others are all new
    rw [keys_mergeFields merged, keys_mergeFields right, List.filter_append,
      filter_new_eq_nil (List.Subset.refl _), List.nil_append, List.filter_filter]
    simp only [Bool.and_self]
  · rw [lookup_mergeFields_eq merged, lookup_mergeFields_eq right]
    cases fields.lookup k with
    | none => cases others.lookup k <;> rfl
    | some field => cases others.lookup k with
      | none => exact congrArg some (complete_self field)
      | some other => exact congrArg some (complete_absorb field other)

/-! ### The merge of two objects -/

/-- **One object merged into another**, key by key. -/
structure IsMerge (fields others merged : List (String × Schema)) : Prop where
  /-- The keys of the first, and the further ones of the second, each in their order. -/
  keys : merged.map Prod.fst = fields.map Prod.fst ++
    (others.map Prod.fst).filter fun key => !(fields.map Prod.fst).contains key
  /-- A field of the first alone stays as it is. -/
  kept : ∀ key field, (key, field) ∈ fields → key ∉ others.map Prod.fst → (key, field) ∈ merged
  /-- A field of the second alone is taken as it is. -/
  taken : ∀ key other, (key, other) ∈ others → key ∉ fields.map Prod.fst → (key, other) ∈ merged
  /-- A field of both is that of the first, but for the remark and, if it is a scalar, the fallback:
  where the first has none it is that of the second. -/
  filled : ∀ key field other, (key, field) ∈ fields → (key, other) ∈ others →
    (key, field.mapLabel fun label =>
      { label with
        remark := label.remark.or other.label.remark
        fallback := label.fallback.or
          (if field.isScalar then other.label.fallback else none) }) ∈ merged

theorem isMerge_mergeFields (left : (fields.map Prod.fst).Nodup)
    (right : (others.map Prod.fst).Nodup) : IsMerge fields others (mergeFields fields others) where
  keys := keys_mergeFields right
  kept key field hfield new := by
    refine mem_of_lookup ?_
    rw [lookup_mergeFields_eq right, lookup_of_mem left hfield, lookup_eq_none_of_notMem new]
    rfl
  taken key other hother new := by
    refine mem_of_lookup ?_
    rw [lookup_mergeFields_eq right, lookup_of_mem right hother, lookup_eq_none_of_notMem new]
    rfl
  filled key field other hfield hother := by
    refine mem_of_lookup ?_
    rw [lookup_mergeFields_eq right, lookup_of_mem left hfield, lookup_of_mem right hother,
      ← complete_eq]
    rfl

/-- A merge has no fewer fields than either object, and no more than both. -/
theorem length_mergeFields (right : (others.map Prod.fst).Nodup) :
    fields.length ≤ (mergeFields fields others).length ∧
      others.length ≤ (mergeFields fields others).length ∧
      (mergeFields fields others).length ≤ fields.length + others.length := by
  have keys : ((mergeFields fields others).map Prod.fst).length = _ :=
    congrArg List.length (keys_mergeFields right)
  simp only [List.length_map, List.length_append] at keys
  have fewer := List.length_filter_le
    (fun key => !(fields.map Prod.fst).contains key) (others.map Prod.fst)
  have covered : (others.map Prod.fst).length ≤ ((mergeFields fields others).map Prod.fst).length :=
    right.length_le_of_subset fun key hkey => mem_keys_mergeFields_iff.mpr (.inr hkey)
  simp only [List.length_map] at fewer covered
  omega

/-- Nothing is merged unless both are objects. -/
theorem merge_of_not_isObject {s other : Schema} (h : s.isObject = false ∨ other.isObject = false) :
    s.merge other = s := by
  rcases h with h | h
  · cases s with
    | object => cases h
    | primitive | text | array => rfl
  · cases other with
    | object => cases h
    | primitive | text | array => cases s <;> rfl

/-- **Merging, key by key.**  Nothing happens unless both are objects.  The merge of two objects is the
first one with other fields, which are those of the two as `IsMerge` says; so there are no fewer of
them than in either, and no more than in both.  Merging in the same object once more changes nothing,
and neither does merging the outcome into the first object. -/
theorem merge_key_by_key (s other : Schema) (left : s.fieldKeys.Nodup)
    (right : other.fieldKeys.Nodup) :
    (s.isObject = false ∨ other.isObject = false → s.merge other = s) ∧
    (∀ label isRecursive fields label' isRecursive' others,
      s = .object label isRecursive fields → other = .object label' isRecursive' others →
        ∃ merged, s.merge other = .object label isRecursive merged ∧
          IsMerge fields others merged ∧
          fields.length ≤ merged.length ∧ others.length ≤ merged.length ∧
          merged.length ≤ fields.length + others.length) ∧
    (s.merge other).merge other = s.merge other ∧
    s.merge (s.merge other) = s.merge other := by
  refine ⟨merge_of_not_isObject, ?_, ?_⟩
  · rintro label isRecursive fields label' isRecursive' others rfl rfl
    exact ⟨mergeFields fields others, rfl, isMerge_mergeFields left right, length_mergeFields right⟩
  · cases s with
    | primitive | text | array => exact ⟨rfl, rfl⟩
    | object label isRecursive fields =>
      have distinct : ((other.fields?.getD []).map Prod.fst).Nodup := by
        cases other with
        | object => exact right
        | primitive | text | array => exact List.nodup_nil
      constructor
      · rw [merge_object, merge_object, mergeFields_mergeFields_self left distinct]
      · rw [merge_object label isRecursive fields other]
        exact congrArg (object label isRecursive) (mergeFields_absorb left distinct)

/-- The parameters that ask for a page.  The size has a remark and a fallback, the number has neither. -/
def paging : List (String × Schema) :=
  [("page", ofPrimitive "u32" (.ofInt 0)),
    ("size", ((ofPrimitive "u32" (.ofInt 0)).addRemark "page size").setFallback "20")]

/-- The parameters of a search, which say something about the same keys. -/
def search : List (String × Schema) :=
  [("size", ((ofPrimitive "u64" (.ofInt 0)).addRemark "of a result").setFallback "50"),
    ("text", ofText "String" ""),
    ("page", ((ofPrimitive "u64" (.ofInt 0)).addRemark "page index").setFallback "1")]

/-- A search fills in what the paging leaves open. -/
theorem merge_paging_search :
    (object (Label.ofType "Paging") false paging).fieldKeys.Nodup ∧
    (object (Label.ofType "Search") false search).fieldKeys.Nodup ∧
    ∃ merged, (object (Label.ofType "Paging") false paging).merge
        (.object (Label.ofType "Search") false search) =
          .object (Label.ofType "Paging") false merged ∧
      merged.map Prod.fst = ["page", "size", "text"] ∧
      ("page", ((ofPrimitive "u32" (.ofInt 0)).addRemark "page index").setFallback "1") ∈ merged := by
  have left : (object (Label.ofType "Paging") false paging).fieldKeys.Nodup := by decide
  have right : (object (Label.ofType "Search") false search).fieldKeys.Nodup := by decide
  obtain ⟨merged, he, isMerge, -⟩ := (merge_key_by_key _ _ left right).2.1 _ _ _ _ _ _ rfl rfl
  refine ⟨left, right, merged, he, isMerge.keys, ?_⟩
  exact isMerge.filled "page" _ _ List.mem_cons_self
    (List.mem_cons_of_mem _ (List.mem_cons_of_mem _ List.mem_cons_self))

end Schema
end RouteBook
