import RouteBook.Proofs.Schema.Contributions
import RouteBook.Proofs.Schema.Merging
/-! # Merging several objects

Merging is associative where the kinds of the fields agree (`Mergeable.merge_assoc`), so that several
objects may be merged in any brackets (`Bracketing.merged_eq`).  The keys of all brackets are those of
the objects, each in the order in which they come.  Under a key the first field with that key stays,
and its remark and its fallback value are the first ones that the fields have.

The kinds must agree because of the fallback values.  A scalar that has none takes one from any field,
but what is no scalar takes none: if a scalar, an array and another scalar stand under a key, the
first may take a fallback value from the last, unless the last has gone into the array before.
-/
namespace RouteBook
namespace Schema

/-! ### Filling in -/

theorem isScalar_mapLabel (f : Label → Label) (s : Schema) :
    (s.mapLabel f).isScalar = s.isScalar := by
  cases s <;> rfl

theorem isScalar_complete (field other : Schema) :
    (complete field other).isScalar = field.isScalar := isScalar_mapLabel _ field

/-- **Filling in is associative** where the kinds agree. -/
theorem complete_assoc {field other : Schema} (agree : field.isScalar = other.isScalar)
    (last : Schema) :
    complete (complete field other) last = complete field (complete other last) := by
  rw [complete_eq (complete field other), complete_eq field, complete_eq field, complete_eq other,
    mapLabel_mapLabel, isScalar_mapLabel, label_mapLabel, agree]
  cases other.isScalar <;> simp [Option.or_assoc]

/-! ### Lists of fields -/

/-- Fields under keys of their own, and scalars under those keys that are said to have scalars. -/
structure OfKinds (scalar : String → Bool) (fields : List (String × Schema)) : Prop where
  distinct : (fields.map Prod.fst).Nodup
  kinds : ∀ p ∈ fields, p.2.isScalar = scalar p.1

variable {scalar : String → Bool} {a b c : List (String × Schema)}

theorem OfKinds.mergeFields (ha : OfKinds scalar a) (hb : OfKinds scalar b) :
    OfKinds scalar (mergeFields a b) where
  distinct := nodup_keys_mergeFields ha.distinct
  kinds := forall_mergeFields
    (fun _ field other hfield _ => (isScalar_complete field other).trans hfield) ha.kinds hb.kinds

/-- The further keys of two objects, one after the other. -/
theorem keys_mergeFields_assoc (hb : (b.map Prod.fst).Nodup) (hc : (c.map Prod.fst).Nodup) :
    (mergeFields (mergeFields a b) c).map Prod.fst =
      (mergeFields a (mergeFields b c)).map Prod.fst := by
  rw [keys_mergeFields hc, keys_mergeFields hb, keys_mergeFields (nodup_keys_mergeFields hb),
    keys_mergeFields hc, List.filter_append, List.filter_filter, List.append_assoc]
  refine congrArg (_ ++ ·) (congrArg (_ ++ ·) (List.filter_congr fun key _ => ?_))
  simp only [List.contains_eq_mem, List.mem_append, List.mem_filter]
  by_cases hka : key ∈ a.map Prod.fst <;> by_cases hkb : key ∈ b.map Prod.fst <;> simp [hka, hkb]

/-- **Merging lists of fields is associative** where the kinds agree. -/
theorem mergeFields_assoc (ha : OfKinds scalar a) (hb : OfKinds scalar b)
    (hc : OfKinds scalar c) :
    mergeFields (mergeFields a b) c = mergeFields a (mergeFields b c) := by
  refine eq_of_lookup ((ha.mergeFields hb).mergeFields hc).distinct
    (keys_mergeFields_assoc hb.distinct hc.distinct) fun key => ?_
  rw [lookup_mergeFields_eq hc.distinct, lookup_mergeFields_eq hb.distinct,
    lookup_mergeFields_eq (hb.mergeFields hc).distinct, lookup_mergeFields_eq hc.distinct]
  cases first : a.lookup key with
  | none => cases b.lookup key <;> cases c.lookup key <;> rfl
  | some field =>
    cases second : b.lookup key with
    | none => cases c.lookup key <;> rfl
    | some other =>
      cases c.lookup key with
      | none => rfl
      | some last =>
        have agree : field.isScalar = other.isScalar :=
          (ha.kinds _ (mem_of_lookup first)).trans (hb.kinds _ (mem_of_lookup second)).symm
        exact congrArg some (complete_assoc agree last)

/-! ### Objects -/

/-- **Objects that may be merged in any brackets**: each key is in an object once, and fields that
share a key are all scalars, or none of them is. -/
structure Mergeable (objects : List Schema) : Prop where
  isObject : ∀ s ∈ objects, s.isObject = true
  distinct : ∀ s ∈ objects, s.fieldKeys.Nodup
  kinds : ∀ s ∈ objects, ∀ other ∈ objects, ∀ key field otherField,
    (key, field) ∈ s.fields?.getD [] → (key, otherField) ∈ other.fields?.getD [] →
      field.isScalar = otherField.isScalar

instance (objects : List Schema) : Decidable (Mergeable objects) :=
  decidable_of_iff ((∀ s ∈ objects, s.isObject = true) ∧ (∀ s ∈ objects, s.fieldKeys.Nodup) ∧
    ∀ s ∈ objects, ∀ other ∈ objects, ∀ p ∈ s.fields?.getD [], ∀ q ∈ other.fields?.getD [],
      p.1 = q.1 → p.2.isScalar = q.2.isScalar)
    ⟨fun h => ⟨h.1, h.2.1, fun s hs other hother _ _ _ hp hq =>
        h.2.2 s hs other hother _ hp _ hq rfl⟩,
      fun h => ⟨h.isObject, h.distinct, fun s hs other hother p hp q hq same =>
        h.kinds s hs other hother p.1 p.2 q.2 hp (same ▸ hq)⟩⟩

/-- An object with such fields. -/
structure IsObjectOf (scalar : String → Bool) (s : Schema) : Prop where
  isObject : s.isObject = true
  fields : OfKinds scalar (s.fields?.getD [])

theorem Mergeable.exists_kinds {objects : List Schema} (h : Mergeable objects) :
    ∃ scalar, ∀ s ∈ objects, IsObjectOf scalar s := by
  -- a key has scalars if a scalar stands under it anywhere
  refine ⟨fun key => objects.any fun s => (s.fields?.getD []).any fun p =>
    p.1 == key && p.2.isScalar, fun s hs => ⟨h.isObject s hs, ?_, ?_⟩⟩
  · have distinct := h.distinct s hs
    cases s with
    | object => exact distinct
    | primitive | text | array => exact List.nodup_nil
  · intro p hp
    rw [Bool.eq_iff_iff, List.any_eq_true]
    constructor
    · intro isScalar
      refine ⟨s, hs, List.any_eq_true.mpr ⟨p, hp, ?_⟩⟩
      rw [beq_self_eq_true, isScalar]
      rfl
    · rintro ⟨other, hother, hany⟩
      obtain ⟨⟨key, field⟩, hq, same⟩ := List.any_eq_true.mp hany
      obtain ⟨hkey, isScalar⟩ := Bool.and_eq_true_iff.mp same
      obtain rfl := beq_iff_eq.mp hkey
      exact (h.kinds s hs other hother p.1 p.2 field hp hq).trans isScalar

namespace IsObjectOf

variable {s other last : Schema}

theorem merge (h : IsObjectOf scalar s) (hother : IsObjectOf scalar other) :
    IsObjectOf scalar (s.merge other) := by
  have isObject := h.isObject
  cases s with
  | object label isRecursive fields =>
    rw [merge_object]
    exact ⟨rfl, h.fields.mergeFields hother.fields⟩
  | primitive | text | array => cases isObject

theorem foldl_merge {rest : List Schema} (h : IsObjectOf scalar s)
    (hrest : ∀ o ∈ rest, IsObjectOf scalar o) :
    IsObjectOf scalar (rest.foldl Schema.merge s) := by
  induction rest generalizing s with
  | nil => exact h
  | cons o rest ih =>
    obtain ⟨ho, hrest⟩ := List.forall_mem_cons.mp hrest
    exact ih (h.merge ho) hrest

theorem merge_assoc (h : IsObjectOf scalar s) (hother : IsObjectOf scalar other)
    (hlast : IsObjectOf scalar last) :
    (s.merge other).merge last = s.merge (other.merge last) := by
  have isObject := h.isObject
  have isObject' := hother.isObject
  cases s with
  | object label isRecursive fields =>
    cases other with
    | object label' isRecursive' others =>
      have assoc := mergeFields_assoc h.fields hother.fields hlast.fields
      rw [merge_object, merge_object, merge_object, merge_object]
      exact congrArg (object label isRecursive) assoc
    | primitive | text | array => cases isObject'
  | primitive | text | array => cases isObject

/-- Several objects may be merged before they are merged in. -/
theorem merge_foldl {rest : List Schema} (h : IsObjectOf scalar s)
    (hother : IsObjectOf scalar other) (hrest : ∀ o ∈ rest, IsObjectOf scalar o) :
    s.merge (rest.foldl Schema.merge other) = rest.foldl Schema.merge (s.merge other) := by
  induction rest generalizing other with
  | nil => rfl
  | cons o rest ih =>
    obtain ⟨ho, hrest⟩ := List.forall_mem_cons.mp hrest
    rw [List.foldl_cons, List.foldl_cons, ih (hother.merge ho) hrest, h.merge_assoc hother ho]

end IsObjectOf

/-- **Merging objects is associative** where the kinds of their fields agree. -/
theorem Mergeable.merge_assoc {s other last : Schema} (h : Mergeable [s, other, last]) :
    (s.merge other).merge last = s.merge (other.merge last) := by
  obtain ⟨scalar, kinds⟩ := h.exists_kinds
  simp only [List.forall_mem_cons] at kinds
  obtain ⟨first, second, third, -⟩ := kinds
  exact first.merge_assoc second third

/-- Where the kinds do not agree, a fallback value may be lost: an array does not take it from the
last number, so that the first one has nothing to take. -/
example :
    let first := object (Label.ofType "A") false [("size", ofPrimitive "u32" (.ofInt 0))]
    let second := object (Label.ofType "B") false [("size", ofElement (ofText "String" ""))]
    let third := object (Label.ofType "C") false
      [("size", (ofPrimitive "u32" (.ofInt 0)).setFallback "20")]
    ((first.merge second).merge third).sample.compact = "\x7b\"size\":20\x7d" ∧
      (first.merge (second.merge third)).sample.compact = "\x7b\"size\":0\x7d" := by
  decide +kernel

/-! ### Brackets -/

/-- Objects in brackets. -/
inductive Bracketing where
  | one (s : Schema)
  | both (left right : Bracketing)

namespace Bracketing

/-- The objects, from left to right. -/
def leaves : Bracketing → List Schema
  | one s => [s]
  | both left right => left.leaves ++ right.leaves

/-- What becomes of the objects when they are merged as the brackets say. -/
def merged : Bracketing → Schema
  | one s => s
  | both left right => left.merged.merge right.merged

theorem exists_leaves_eq_cons (b : Bracketing) : ∃ s rest, b.leaves = s :: rest := by
  induction b with
  | one s => exact ⟨s, [], rfl⟩
  | both left right hleft _ =>
    obtain ⟨s, rest, h⟩ := hleft
    exact ⟨s, rest ++ right.leaves, by rw [leaves, h, List.cons_append]⟩

/-- **Brackets do not count**: it comes to merging one object after another. -/
theorem merged_eq_foldl {b : Bracketing} {s : Schema} {rest : List Schema}
    (kinds : ∀ o ∈ b.leaves, IsObjectOf scalar o) (h : b.leaves = s :: rest) :
    b.merged = rest.foldl merge s := by
  induction b generalizing s rest with
  | one t =>
    obtain ⟨rfl, rfl⟩ := List.cons.inj h
    rfl
  | both left right hleft hright =>
    obtain ⟨first, others, hl⟩ := left.exists_leaves_eq_cons
    obtain ⟨next, more, hr⟩ := right.exists_leaves_eq_cons
    rw [leaves, hl, hr, List.cons_append] at kinds h
    obtain ⟨rfl, rfl⟩ := List.cons.inj h
    obtain ⟨firstKinds, kinds⟩ := List.forall_mem_cons.mp kinds
    obtain ⟨othersKinds, rightKinds⟩ := List.forall_mem_append.mp kinds
    obtain ⟨nextKinds, moreKinds⟩ := List.forall_mem_cons.mp rightKinds
    have leftKinds : ∀ o ∈ left.leaves, IsObjectOf scalar o := by
      rw [hl]
      exact List.forall_mem_cons.mpr ⟨firstKinds, othersKinds⟩
    rw [merged, hleft leftKinds hl, hright (hr ▸ rightKinds) hr,
      (firstKinds.foldl_merge othersKinds).merge_foldl nextKinds moreKinds, List.foldl_append,
      List.foldl_cons]

end Bracketing

/-- The same objects in other brackets are merged into the same object. -/
theorem Mergeable.merged_eq {b other : Bracketing} (h : Mergeable b.leaves)
    (same : b.leaves = other.leaves) : b.merged = other.merged := by
  obtain ⟨scalar, kinds⟩ := h.exists_kinds
  obtain ⟨s, rest, leaves⟩ := b.exists_leaves_eq_cons
  rw [Bracketing.merged_eq_foldl kinds leaves,
    Bracketing.merged_eq_foldl (same ▸ kinds) (same ▸ leaves)]

/-- Objects that are merged in one by one may be merged in any brackets before. -/
theorem Mergeable.foldl_merge_eq {s : Schema} {b : Bracketing} (h : Mergeable (s :: b.leaves)) :
    b.leaves.foldl merge s = s.merge b.merged := by
  obtain ⟨scalar, kinds⟩ := h.exists_kinds
  exact (Bracketing.merged_eq_foldl (b := .both (.one s) b) kinds rfl).symm

/-- Or they may be merged into another one before. -/
theorem Mergeable.merge_foldl {s other : Schema} {rest : List Schema}
    (h : Mergeable (s :: other :: rest)) :
    s.merge (rest.foldl merge other) = rest.foldl merge (s.merge other) := by
  obtain ⟨scalar, kinds⟩ := h.exists_kinds
  obtain ⟨first, kinds⟩ := List.forall_mem_cons.mp kinds
  obtain ⟨second, others⟩ := List.forall_mem_cons.mp kinds
  exact first.merge_foldl second others

/-- An object without fields may be among them. -/
theorem Mergeable.emptyObject_cons {type : String} {objects : List Schema} (h : Mergeable objects) :
    Mergeable (emptyObject type :: objects) where
  isObject := List.forall_mem_cons.mpr ⟨rfl, h.isObject⟩
  distinct := List.forall_mem_cons.mpr ⟨List.nodup_nil, h.distinct⟩
  kinds := by
    intro s hs other hother key field otherField hfield hotherField
    rcases List.mem_cons.mp hs with rfl | hs
    · cases hfield
    · rcases List.mem_cons.mp hother with rfl | hother
      · cases hotherField
      · exact h.kinds s hs other hother key field otherField hfield hotherField

/-- Steps that do nothing but merge. -/
theorem object_run_merged (label : Label) (isRecursive : Bool) (fields : List (String × Schema))
    (others : List Schema) :
    object label isRecursive
        (Contribution.run fields (others.map fun o => .merged (o.fields?.getD []))) =
      others.foldl merge (object label isRecursive fields) := by
  induction others generalizing fields with
  | nil => rfl
  | cons o others ih =>
    rw [List.map_cons, Contribution.run_cons, ih, List.foldl_cons, merge_object]
    rfl

end Schema
end RouteBook
