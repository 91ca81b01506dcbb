import Mathlib.Data.List.Nodup
import RouteBook.Proofs.Describe.Invariants
import RouteBook.Proofs.Describe.WellFormed
import RouteBook.Proofs.Schema.RowPlaces
/-! # Rows and samples describe the same fields

The rows of a description and its sample value are made by two walks over one tree.  They agree in
what they show (`Chain.rows_match_sample`): the key of a row, read as a way, leads through the sample to
the value of the node that the row is about, and a way to a member of an object in the sample is said
by the key of one row and of no other.

Both halves go through the tree.  A way leads to a node in the description iff it leads to its sample in
the sample (`Schema.follow?_sample`, `Schema.exists_at_of_follow?`), since only scalars have fallback
values, which have no parts.  And ways are the keys of rows by `Schema.rowOf_of_mem_rows` and
`Schema.row_of_field`.
-/
namespace RouteBook

/-- **The value at the end of a way** through a sample: a name selects the member of an object, and a
pair of brackets the only item of an array. -/
def Json.follow? : List Step → Json → Option Json
  | [], value => some value
  | .field key :: way, value => (value.member? key).bind fun member => follow? way member
  | .element :: way, .array [item] => follow? way item
  | .element :: _, _ => none

theorem Json.follow?_of_isScalar {value : Json} (scalar : value.isScalar = true) (step : Step)
    (way : List Step) : value.follow? (step :: way) = none := by
  cases value with
  | array | object => cases scalar
  | null | bool | number | text => cases step <;> rfl

namespace Schema
open Json

variable {s node : Schema} {way : List Step} {key : Option String} {row : Row}

/-! ### Ways through a schema and through its sample -/

theorem sampleFields_eq_map (fields : List (String × Schema)) :
    sampleFields fields = fields.map fun f => (f.1, f.2.sample) := by
  induction fields with
  | nil => rfl
  | cons f fields ih =>
    rw [sampleFields, ih]
    rfl

/-- The sample of an object without a fallback has the samples of the fields under their keys. -/
theorem member?_sample {label : Label} {isRecursive : Bool} {fields : List (String × Schema)}
    (noFallback : label.fallback = none) (k : String) :
    (object label isRecursive fields).sample.member? k = (fields.lookup k).map sample := by
  rw [sample, noFallback, Option.getD_none, member?, sampleFields_eq_map]
  induction fields with
  | nil => rfl
  | cons f fields ih =>
    rw [List.map_cons, List.lookup_cons, List.lookup_cons]
    cases k == f.1 with
    | true => rfl
    | false => exact ih

theorem sample_array {label : Label} {element : Schema} (noFallback : label.fallback = none) :
    (array label element).sample = .array [element.sample] := by
  rw [sample, noFallback, Option.getD_none]

/-- The sample of a scalar has no parts. -/
theorem isScalar_sample (scalar : s.isScalar = true) (tidy : s.all isTidy = true) :
    s.sample.isScalar = true := by
  have values := (Bool.and_eq_true_iff.mp (test_of_all tidy)).2
  cases s with
  | primitive label value =>
    obtain ⟨hvalue, hfallback⟩ := Bool.and_eq_true_iff.mp values
    rw [sample]
    cases h : label.fallback with
    | none => exact hvalue
    | some fallback =>
      rw [h] at hfallback
      exact hfallback
  | text label value =>
    rw [hasScalarValues] at values
    rw [sample]
    cases h : label.fallback with
    | none => rfl
    | some fallback =>
      rw [h] at values
      exact values
  | array | object => cases scalar

/-- **A way to a node** leads to the sample of the node. -/
theorem follow?_sample (h : s.At way node) (formed : WellFormed key s)
    (tidy : s.all isTidy = true) : s.sample.follow? way = some node.sample := by
  induction h generalizing key with
  | here => rfl
  | element rest ih =>
    cases formed with
    | array _ _ noFallback helement =>
      rw [sample_array noFallback]
      exact ih helement (At.all (.element (.here _)) tidy)
  | field hfield rest ih =>
    cases formed with
    | object _ _ noFallback hfields =>
      obtain ⟨distinct, -, tidyFields⟩ := isTidy_object_iff.mp tidy
      rw [follow?, member?_sample noFallback, lookup_of_mem distinct hfield]
      exact ih (hfields _ hfield) (tidyFields _ hfield)

/-- **A way through the sample** comes from a way to a node. -/
theorem exists_at_of_follow? {value : Json} (h : s.sample.follow? way = some value)
    (formed : WellFormed key s) (tidy : s.all isTidy = true) :
    ∃ node, s.At way node ∧ node.sample = value := by
  induction way generalizing s key with
  | nil => exact ⟨s, .here s, Option.some.inj h⟩
  | cons step way ih =>
    cases formed with
    | primitive | text =>
      rw [follow?_of_isScalar (isScalar_sample rfl tidy)] at h
      cases h
    | array _ _ noFallback helement =>
      rw [sample_array noFallback] at h
      cases step with
      | field k => cases h
      | element =>
        obtain ⟨node, hnode, he⟩ := ih h helement (At.all (.element (.here _)) tidy)
        exact ⟨node, .element hnode, he⟩
    | object _ _ noFallback hfields =>
      obtain ⟨-, -, tidyFields⟩ := isTidy_object_iff.mp tidy
      cases step with
      | field k =>
        rw [follow?, member?_sample noFallback] at h
        obtain ⟨member, hmember, h⟩ := Option.bind_eq_some_iff.mp h
        obtain ⟨field, hlookup, rfl⟩ := Option.map_eq_some_iff.mp hmember
        have hfield := mem_of_lookup hlookup
        obtain ⟨node, hnode, he⟩ := ih h (hfields _ hfield) (tidyFields _ hfield)
        exact ⟨node, .field hfield hnode, he⟩
      | element =>
        rw [sample, noFallback] at h
        cases h

/-! ### Rows -/

theorem sample_of_fallback {fallback : Json} (h : s.label.fallback = some fallback) :
    s.sample = fallback := by
  cases s <;> rw [label] at h <;> rw [sample, h, Option.getD_some]

/-- Well-formed nodes stand below well-formed ones. -/
theorem At.wellFormed (h : s.At way node) (formed : WellFormed key s) :
    ∃ nodeKey, WellFormed nodeKey node := by
  induction h generalizing key with
  | here => exact ⟨key, formed⟩
  | element _ ih =>
    cases formed with
    | array _ _ _ helement => exact ih helement
  | field hfield _ ih => exact ih (formed.fields _ hfield)

/-- All nodes of a well-formed schema are available. -/
theorem WellFormed.all_isAvailable (formed : WellFormed key s) :
    s.all Schema.isAvailable = true :=
  all_iff.mpr fun _ _ hnode =>
    have ⟨_, hnode⟩ := hnode.wellFormed formed
    hnode.isAvailable

/-- The way that the key of a row says, if the root has no key. -/
theorem read_key (h : s.At way node) (names : s.all hasNames = true) :
    Step.read (Step.pathFrom "" way) = way :=
  Step.read_pathFrom "" (h.isPlain names)

/-- **The key of a row leads to a value** in the sample, and a default that the row shows is the text
of that value. -/
theorem follow?_of_rowOf (h : RowOf "" s row) (formed : WellFormed key s)
    (tidy : s.all isTidy = true) (names : s.all hasNames = true) :
    ∃ value, s.sample.follow? (Step.read row.key) = some value ∧
      ∀ text, row.fallback = some text → text = value.plainText := by
  cases h with
  | @own way node hnode =>
    refine ⟨node.sample, ?_, ?_⟩
    · rw [Row.ofLabel, read_key hnode names]
      exact follow?_sample hnode formed tidy
    · intro text htext
      obtain ⟨fallback, hfallback, rfl⟩ := Option.map_eq_some_iff.mp htext
      rw [sample_of_fallback hfallback]
  | @ofElement way label element hnode =>
    have helement := hnode.append (.element (.here element))
    refine ⟨element.sample, ?_, ?_⟩
    · rw [Row.ofLabel, read_key helement names]
      exact follow?_sample helement formed tidy
    · -- an array has no fallback that its row could show
      intro text htext
      obtain ⟨nodeKey, harray⟩ := hnode.wellFormed formed
      have noFallback : label.fallback = none := harray.fallback_eq_none rfl
      rw [Row.ofLabel, noFallback] at htext
      cases htext

/-- **One row and no other** says the way to a member of an object in the sample. -/
theorem countP_rows_of_member {k : String} {member : Json} (root : s.label.key = none)
    (h : s.sample.follow? (way ++ [.field k]) = some member) (formed : WellFormed key s)
    (tidy : s.all isTidy = true) (names : s.all hasNames = true) :
    s.rows.countP (fun row => Step.read row.key = way ++ [.field k]) = 1 := by
  obtain ⟨field, hfield, -⟩ := exists_at_of_follow? h formed tidy
  have path : s.pathOf (way ++ [.field k]) = Step.pathFrom "" (way ++ [.field k]) := by
    rw [pathOf, root, Option.getD_none]
  have ne : s.pathOf (way ++ [.field k]) ≠ "" := by
    intro empty
    have steps := (Step.pathFrom_eq_empty_iff (hfield.isPlain names)).mp empty
    exact List.append_ne_nil_of_right_ne_nil way (List.cons_ne_nil _ _) steps.2
  have hrow := row_of_field hfield formed.all_isAvailable ne
  have distinct : s.all hasDistinctKeys = true :=
    all_iff.mpr fun _ _ hnode => (Bool.and_eq_true_iff.mp (test_of_all (hnode.all tidy))).1
  have keys := nodup_keys_rows names distinct
  -- a row says the way iff its key is the path of the way
  have same : ∀ row ∈ s.rows,
      Step.read row.key = way ++ [.field k] ↔ row.key = s.pathOf (way ++ [.field k]) := by
    intro row hrow
    have rowOf := rowOf_of_mem_rows hrow
    rw [root, Option.getD_none] at rowOf
    obtain ⟨rowWay, node, hnode, hkey⟩ := rowOf.exists_way
    rw [hkey, read_key hnode names, path]
    constructor
    · rintro rfl
      rfl
    · exact Step.pathFrom_inj "" (hnode.isPlain names) (hfield.isPlain names)
  calc s.rows.countP (fun row => Step.read row.key = way ++ [.field k])
      = s.rows.countP (fun row => row.key = s.pathOf (way ++ [.field k])) :=
        List.countP_congr fun row hrow => by simpa using same row hrow
    _ = (s.rows.map Row.key).count (s.pathOf (way ++ [.field k])) := by
        rw [List.count_eq_countP, List.countP_map]
        rfl
    _ = 1 := List.count_eq_one_of_mem keys (List.mem_map_of_mem hrow)

end Schema

/-- **Rows and samples describe the same fields.**  Let the description of a type be available and the
keys of its fields be names.  Then the key of every row leads to a value in the sample, and a default
that the row shows is the text of that value; and for each member of an object anywhere in the sample
there is one row with a key that leads to it, and no more. -/
theorem Chain.rows_match_sample (chain : Chain) (hchain : chain.IsBuiltIn) (index : TypeIndex)
    (t : TypeTerm) (available : (chain.resolve index t).value.isAvailable = true)
    (names : (chain.resolve index t).value.all Schema.hasNames = true) :
    (∀ row ∈ (chain.resolve index t).value.rows, ∃ value,
      (chain.resolve index t).value.sample.follow? (Step.read row.key) = some value ∧
        ∀ text, row.fallback = some text → text = value.plainText) ∧
    ∀ way key member,
      (chain.resolve index t).value.sample.follow? (way ++ [.field key]) = some member →
        (chain.resolve index t).value.rows.countP
          (fun row => Step.read row.key = way ++ [.field key]) = 1 := by
  have formed : Schema.WellFormed none (chain.resolve index t).value :=
    resolveAt_wellFormed hchain index maxNesting [] t available
  have tidy : (chain.resolve index t).value.all Schema.isTidy = true :=
    invariant_resolveAt Schema.invariant_isTidy hchain index maxNesting [] t available
  constructor
  · intro row hrow
    have rowOf := Schema.rowOf_of_mem_rows hrow
    rw [formed.key_eq, Option.getD_none] at rowOf
    exact Schema.follow?_of_rowOf rowOf formed tidy names
  · intro way key member h
    exact Schema.countP_rows_of_member formed.key_eq h formed tidy names

/-- In the description of pages of nodes, one row is about the label of the nodes on a page. -/
theorem rows_match_page_of_nodes :
    (Spring.chain.resolve nodeIndex (.applied "Page" [.named "Node"])).value.rows.countP
      (fun row => Step.read row.key = [.field "content", .element] ++ [.field "label"]) = 1 := by
  have available : (Spring.chain.resolve nodeIndex
      (.applied "Page" [.named "Node"])).value.isAvailable = true := by decide +kernel
  have names : (Spring.chain.resolve nodeIndex
      (.applied "Page" [.named "Node"])).value.all Schema.hasNames = true := by decide +kernel
  have agree := Chain.rows_match_sample Spring.chain (.inr rfl) nodeIndex
    (.applied "Page" [.named "Node"]) available names
  exact agree.2 [.field "content", .element] "label" (.text "root") (by rfl)

end RouteBook
