import RouteBook.Proofs.Describe.Records
import RouteBook.Proofs.Schema.Bracketing
import RouteBook.Proofs.Spring.MergedParams
/-! # Objects merged in any brackets

Two walks merge objects: the one over the fields of a structure merges those of flattened fields, and
the one over the parameters of a handler those of parameters.  Both merge one object after another.
So where the kinds of the fields agree, it makes no difference in which brackets the objects are
merged, and nested flattening comes to flattening in succession (`Spring.merged_in_any_brackets`).
-/
namespace RouteBook
open Schema

namespace Declared

/-- Flattened fields merge their objects one after another. -/
theorem value_addFields_of_flattened {inner : TypeTerm → Logged Schema} {r : RecordShape}
    {t : TypeTerm} {s : Schema} {fs : List FieldShape} (isObject : s.isObject = true)
    (flattened : ∀ f ∈ fs, IsFlattened (part inner r t) f) :
    (addFields inner r t s fs).value = (fs.map (part inner r t)).foldl merge s := by
  cases s with
  | object label isRecursive fields =>
    have merges : fs.map (contribution (part inner r t)) =
        (fs.map (part inner r t)).map fun o => .merged (o.fields?.getD []) := by
      rw [List.map_map]
      exact List.map_congr_left fun f hf => contribution_of_flattened (flattened f hf)
    rw [value_addFields, foldl_withField_eq, merges, object_run_merged]
  | primitive | text | array => cases isObject

/-- **Nested flattening.**  A structure that is filled by flattened fields, from `base` on, may be
flattened.  Or else `base` is merged and fields with the same objects are flattened one by one. -/
theorem value_addFields_of_nested {inner inner' : TypeTerm → Logged Schema} {r r' : RecordShape}
    {t t' : TypeTerm} {s base : Schema} {f : FieldShape} {fs gs : List FieldShape}
    (outer : IsFlattened (part inner r t) f)
    (nested : part inner r t f = (addFields inner' r' t' base fs).value)
    (flattened : ∀ g ∈ fs, IsFlattened (part inner' r' t') g)
    (successive : ∀ g ∈ gs, IsFlattened (part inner r t) g)
    (same : gs.map (part inner r t) = fs.map (part inner' r' t'))
    (mergeable : Mergeable (s :: base :: fs.map (part inner' r' t'))) :
    (addFields inner r t s [f]).value = (addFields inner r t (s.merge base) gs).value := by
  have object : s.isObject = true := mergeable.isObject s List.mem_cons_self
  have baseObject : base.isObject = true :=
    mergeable.isObject base (List.mem_cons_of_mem s List.mem_cons_self)
  have mergedObject : (s.merge base).isObject = true := by
    cases s with
    | object => rw [merge_object]; rfl
    | primitive | text | array => cases object
  rw [value_addFields_of_flattened object (List.forall_mem_singleton.mpr outer),
    value_addFields_of_flattened mergedObject successive, List.map_singleton, nested,
    value_addFields_of_flattened baseObject flattened, same]
  exact mergeable.merge_foldl

end Declared

namespace Spring
open Declared

/-- Parameters that are objects are merged one after another. -/
theorem value_foldlM_mergeParam_of_spread {types : Types} {s : Schema} {ps : List HandlerParam}
    (isObject : s.isObject = true) (spread : ∀ p ∈ ps, IsSpread types p) (h : Handler)
    (e : Endpoint) :
    (ps.foldlM (mergeParam types h e) s).value =
      (ps.map fun p => (types.resolve p.type).value).foldl merge s := by
  cases s with
  | object label isRecursive fields =>
    have merges : ps.map (paramContribution types e) =
        (ps.map fun p => (types.resolve p.type).value).map
          fun o => .merged (o.fields?.getD []) := by
      rw [List.map_map]
      exact List.map_congr_left fun p hp => paramContribution_of_spread (spread p hp)
    rw [value_foldlM_mergeParam, merges, object_run_merged]
  | primitive | text | array => cases isObject

/-- So their objects may be merged in any brackets before. -/
theorem value_foldlM_mergeParam_of_leaves {types : Types} {s : Schema} {ps : List HandlerParam}
    {b : Bracketing} (spread : ∀ p ∈ ps, IsSpread types p)
    (leaves : (ps.map fun p => (types.resolve p.type).value) = b.leaves)
    (mergeable : Mergeable (s :: b.leaves)) (h : Handler) (e : Endpoint) :
    (ps.foldlM (mergeParam types h e) s).value = s.merge b.merged := by
  have object : s.isObject = true := mergeable.isObject s List.mem_cons_self
  rw [value_foldlM_mergeParam_of_spread object spread, leaves, mergeable.foldl_merge_eq]

/-- **Objects may be merged in any brackets** where fields that share a key are all scalars, or none
of them is.  Merging is associative, and gives the same keys in the same order, with the same remarks
and fallback values; so the same objects in any two brackets become the same object.

It makes no difference then whether a structure is flattened that flattens others itself, or whether
these are flattened one after another.  And the parameters of a handler that are objects come to the
same as their objects merged in any brackets, be it that others go before them or that there are no
others. -/
theorem merged_in_any_brackets :
    (∀ a b c : Schema, Mergeable [a, b, c] → (a.merge b).merge c = a.merge (b.merge c)) ∧
    (∀ b other : Bracketing, Mergeable b.leaves → b.leaves = other.leaves →
      b.merged = other.merged) ∧
    (∀ inner r t inner' r' t' s base f fs gs, IsFlattened (part inner r t) f →
      part inner r t f = (addFields inner' r' t' base fs).value →
      (∀ g ∈ fs, IsFlattened (part inner' r' t') g) →
      (∀ g ∈ gs, IsFlattened (part inner r t) g) →
      gs.map (part inner r t) = fs.map (part inner' r' t') →
      Mergeable (s :: base :: fs.map (part inner' r' t')) →
        (addFields inner r t s [f]).value = (addFields inner r t (s.merge base) gs).value) ∧
    (∀ (types : Types) (h : Handler) (e : Endpoint) (b : Bracketing),
      (∀ s (ps : List HandlerParam), (∀ p ∈ ps, IsSpread types p) →
        (ps.map fun p => (types.resolve p.type).value) = b.leaves → Mergeable (s :: b.leaves) →
          (ps.foldlM (mergeParam types h e) s).value = s.merge b.merged) ∧
      ((∀ p ∈ h.params.filter isRequestParam, IsSpread types p) →
        ((h.params.filter isRequestParam).map fun p => (types.resolve p.type).value) = b.leaves →
        Mergeable b.leaves →
          (mergedParams types h e).value = (emptyObject "").merge b.merged)) := by
  refine ⟨fun a b c => Mergeable.merge_assoc, fun b other => Mergeable.merged_eq, ?_, ?_⟩
  · intro inner r t inner' r' t' s base f fs gs outer nested flattened successive same mergeable
    exact value_addFields_of_nested outer nested flattened successive same mergeable
  · intro types h e b
    constructor
    · intro s ps spread leaves mergeable
      exact value_foldlM_mergeParam_of_leaves spread leaves mergeable h e
    · intro spread leaves mergeable
      exact value_foldlM_mergeParam_of_leaves spread leaves mergeable.emptyObject_cons h e

/-- Types that are taken together: the parameters of a page and those of a search, a way of sorting,
and a query that takes in the first two. -/
def queryTypes : Types where
  chain := chain
  index := ⟨[
    ("Paging", .record ⟨"Paging", [],
      [⟨"page", .named "u32", .none, none, none⟩, ⟨"size", .named "u32", .none, none, none⟩]⟩),
    ("Search", .record ⟨"Search", [],
      [⟨"text", .named "String", .none, none, none⟩,
        ⟨"size", .named "u64", .none, none, some "of a page"⟩]⟩),
    ("Sorting", .record ⟨"Sorting", [],
      [⟨"size", .named "u8", .none, some "20", some "of the list"⟩,
        ⟨"order", .named "String", .none, some "asc", none⟩]⟩)]⟩

/-- A structure that takes in the fields of the given types. -/
def flattening (name : String) (types : List String) : RecordShape where
  name := name
  generics := []
  fields := types.map fun type =>
    ⟨type, .named type, { FieldRules.none with flatten := true }, none, none⟩

/-- A handler that takes values of all three types. -/
def listSorted : Handler where
  name := "list"
  markers := [⟨"get_mapping", [(Marker.positional, .text "/items")]⟩]
  doc := .none
  params := ["Paging", "Search", "Sorting"].map fun type => ⟨none, .named type, []⟩
  returns := none

/-- The objects of the three types. -/
def queryObject (type : String) : Schema := (queryTypes.resolve (.named type)).value

/-- A description of queries, over the descriptions of the other types. -/
def describeQuery (t : TypeTerm) : Logged Schema :=
  if t.name = "Query" then
    addFields queryTypes.resolve (flattening "Query" ["Paging", "Search"]) t (.emptyObject "Query")
      (flattening "Query" ["Paging", "Search"]).fields
  else queryTypes.resolve t

/-- Sorted pages of a search, in different brackets. -/
theorem merged_query_objects :
    ((queryObject "Paging").merge (queryObject "Search")).merge (queryObject "Sorting") =
      (queryObject "Paging").merge ((queryObject "Search").merge (queryObject "Sorting")) ∧
    (addFields describeQuery (flattening "Listing" ["Query"]) (.named "Listing")
        (queryObject "Sorting") (flattening "Listing" ["Query"]).fields).value =
      (addFields describeQuery (flattening "Listing" ["Query"]) (.named "Listing")
        ((queryObject "Sorting").merge (.emptyObject "Query"))
        (flattening "Listing" ["Paging", "Search"]).fields).value ∧
    (mergedParams queryTypes listSorted (.new "list")).value =
      (emptyObject "").merge ((queryObject "Paging").merge
        ((queryObject "Search").merge (queryObject "Sorting"))) := by
  obtain ⟨assoc, brackets, nested, params⟩ := merged_in_any_brackets
  have all : Mergeable [queryObject "Paging", queryObject "Search", queryObject "Sorting"] := by
    decide +kernel
  have objects : ∀ type ∈ ["Paging", "Search", "Sorting"],
      (queryObject type).isAvailable = true ∧ (queryObject type).isObject = true := by
    decide +kernel
  have same : (flattening "Query" ["Paging", "Search"]).fields.map
      (part describeQuery (flattening "Listing" ["Query"]) (.named "Listing")) =
    (flattening "Query" ["Paging", "Search"]).fields.map
      (part queryTypes.resolve (flattening "Query" ["Paging", "Search"]) (.named "Query")) := rfl
  have flattened : ∀ g ∈ (flattening "Query" ["Paging", "Search"]).fields,
      IsFlattened (part queryTypes.resolve (flattening "Query" ["Paging", "Search"])
        (.named "Query")) g := by
    intro g hg
    obtain ⟨type, htype, rfl⟩ := List.mem_map.mp hg
    obtain ⟨available, isObject⟩ := objects type (List.mem_of_mem_take (i := 2) htype)
    exact ⟨rfl, rfl, available, isObject⟩
  refine ⟨assoc _ _ _ all, ?_, ?_⟩
  · apply nested describeQuery (flattening "Listing" ["Query"]) (.named "Listing")
      queryTypes.resolve (flattening "Query" ["Paging", "Search"]) (.named "Query")
      (queryObject "Sorting") (.emptyObject "Query") _
      (flattening "Query" ["Paging", "Search"]).fields
    · exact ⟨rfl, rfl, by decide +kernel, by decide +kernel⟩
    · rfl
    · exact flattened
    · intro g hg
      obtain ⟨kept, into, available, isObject⟩ := flattened g hg
      rw [← List.map_inj_left.mp same g hg] at available isObject
      exact ⟨kept, into, available, isObject⟩
    · exact same
    · decide +kernel
  · apply (params queryTypes listSorted (.new "list") (.both (.one (queryObject "Paging"))
      (.both (.one (queryObject "Search")) (.one (queryObject "Sorting"))))).2
    · intro p hp
      obtain ⟨type, htype, rfl⟩ := List.mem_map.mp (List.mem_filter.mp hp).1
      obtain ⟨available, isObject⟩ := objects type htype
      exact ⟨available, isObject⟩
    · rfl
    · exact all

end Spring
end RouteBook
