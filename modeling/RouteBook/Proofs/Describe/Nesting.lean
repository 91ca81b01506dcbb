import Mathlib.Data.List.Chain
import RouteBook.Proofs.Describe.Run
import RouteBook.Proofs.Schema.Branch
import RouteBook.Proofs.Schema.WellFormed
/-! # No type is expanded inside its own expansion

Declarations may refer to themselves through any mix of fields, arguments, synonyms and pointers,
and a structure may even hold instances of itself with ever larger arguments.  Two guards keep
descriptions finite: the stack of the types that are being described, and the levels that are
counted down.

What both guards make of a description is said by `Expansion index levels above s`, an invariant of
the tree alone: with every open node a level is used up, and with every structure its text joins
those of `above`, to which it did not belong.  The levels may be raised and the texts above
forgotten (`Expansion.weaken`), which is what flattened fields, pointers and synonyms need.  The
bound on the branches and the difference of the texts on them are then inductions on a branch.
-/
namespace RouteBook

/-! ### The invariant -/

/-- **What may stand below the types with the texts `above`**, with so many levels left. -/
inductive Expansion (index : TypeIndex) : Nat → List String → Schema → Prop
  | primitive {levels : Nat} {above : List String} {label : Label} {sample : Json} :
      Expansion index (levels + 1) above (.primitive label sample)
  | text {levels : Nat} {above : List String} {label : Label} {sample : String} :
      Expansion index (levels + 1) above (.text label sample)
  | marker {levels : Nat} {above : List String} {label : Label} :
      Expansion index levels above (.object label true [])
  | array {levels : Nat} {above : List String} {label : Label} {element : Schema}
      (helement : Expansion index levels above element) :
      Expansion index (levels + 1) above (.array label element)
  | map {levels : Nat} {above : List String} {label : Label} {t : TypeTerm}
      (known : Standard.isOneOf t Standard.maps = true) (undeclared : index.find? t.name = none)
      (htype : label.type = t.text) : Expansion index (levels + 1) above (.object label false [])
  | record {levels : Nat} {above : List String} {label : Label} {t : TypeTerm} {r : RecordShape}
      {fields : List (String × Schema)} (declared : index.find? t.name = some (.record r))
      (htype : label.type = t.text) (new : t.text ∉ above)
      (hfields : ∀ f ∈ fields, Expansion index levels (t.text :: above) f.2) :
      Expansion index (levels + 1) above (.object label false fields)

namespace Expansion

variable {index : TypeIndex} {levels : Nat} {above : List String} {s : Schema}

/-- More levels and fewer types above. -/
theorem weaken (h : Expansion index levels above s) {levels' : Nat} {above' : List String}
    (hlevels : levels ≤ levels') (habove : above' ⊆ above) :
    Expansion index levels' above' s := by
  induction h generalizing levels' above' with
  | marker => exact .marker
  | primitive =>
    obtain ⟨n, rfl⟩ := Nat.exists_eq_add_of_le' (Nat.le_of_add_left_le hlevels)
    exact .primitive
  | text =>
    obtain ⟨n, rfl⟩ := Nat.exists_eq_add_of_le' (Nat.le_of_add_left_le hlevels)
    exact .text
  | map known undeclared htype =>
    obtain ⟨n, rfl⟩ := Nat.exists_eq_add_of_le' (Nat.le_of_add_left_le hlevels)
    exact .map known undeclared htype
  | array _ ih =>
    obtain ⟨n, rfl⟩ := Nat.exists_eq_add_of_le' (Nat.le_of_add_left_le hlevels)
    exact .array (ih (by omega) habove)
  | record declared htype new _ ih =>
    obtain ⟨n, rfl⟩ := Nat.exists_eq_add_of_le' (Nat.le_of_add_left_le hlevels)
    refine .record declared htype (fun h => new (habove h)) fun f hf => ?_
    exact ih f hf (by omega) (List.cons_subset_cons _ habove)

/-- A new label with the same type at the root. -/
theorem mapLabel (h : Expansion index levels above s) {f : Label → Label}
    (htype : (f s.label).type = s.label.type) : Expansion index levels above (s.mapLabel f) := by
  cases h with
  | primitive => exact .primitive
  | text => exact .text
  | marker => exact .marker
  | array helement => exact .array helement
  | map known undeclared hlabel => exact .map known undeclared (htype.trans hlabel)
  | record declared hlabel new hfields => exact .record declared (htype.trans hlabel) new hfields

theorem addRemark (h : Expansion index levels above s) (remark : String) :
    Expansion index levels above (s.addRemark remark) := by
  obtain ⟨after, he⟩ := Schema.Label.addRemark_eq s.label remark
  exact h.mapLabel (by rw [he])

theorem setFallback (h : Expansion index levels above s) (written : String) :
    Expansion index levels above (s.setFallback written) := by
  cases h with
  | primitive => exact .primitive
  | text => exact .text
  | marker => exact .marker
  | array helement => exact .array helement
  | map known undeclared htype => exact .map known undeclared htype
  | record declared htype new hfields => exact .record declared htype new hfields

theorem applyField (h : Expansion index levels above s) (f : FieldShape) :
    Expansion index levels above (Declared.applyField f s) :=
  Declared.applyField_induction f (h.mapLabel rfl) (fun _ h => h.mapLabel rfl)
    (fun _ remark h => h.addRemark remark) fun _ written h => h.setFallback written

/-- The fields of an object may stand where the object stands. -/
theorem fields {label : Label} {isRecursive : Bool} {fields : List (String × Schema)}
    (h : Expansion index levels above (.object label isRecursive fields)) :
    ∀ f ∈ fields, Expansion index levels above f.2 := by
  cases h with
  | marker => exact fun _ hf => absurd hf List.not_mem_nil
  | map => exact fun _ hf => absurd hf List.not_mem_nil
  | record _ _ _ hfields =>
    exact fun f hf => (hfields f hf).weaken (Nat.le_succ _) (List.subset_cons_self _ _)

end Expansion

/-! ### Descriptions of the chain without plugins -/

/-- An object under construction, all of whose fields are expansions. -/
def IsObjectOf (index : TypeIndex) (levels : Nat) (above : List String) (type : String)
    (s : Schema) : Prop :=
  ∃ label fields, s = .object label false fields ∧ label.type = type ∧
    ∀ f ∈ fields, Expansion index levels above f.2

namespace IsObjectOf

variable {index : TypeIndex} {levels : Nat} {above : List String} {type : String}
  {object s : Schema}

theorem merge (h : IsObjectOf index levels above type object)
    (hs : Expansion index levels above s) :
    IsObjectOf index levels above type (object.merge s) := by
  obtain ⟨label, fields, rfl, htype, hfields⟩ := h
  unfold Schema.merge
  split
  · rename_i heq
    cases heq
    refine ⟨label, _, rfl, htype, ?_⟩
    exact Schema.forall_mergeFields (motive := fun f => Expansion index levels above f.2)
      (fun _ _ _ hfield _ => hfield.mapLabel rfl) hfields hs.fields
  · exact ⟨label, fields, rfl, htype, hfields⟩

theorem addField (h : IsObjectOf index levels above type object)
    (hs : Expansion index levels above s) :
    IsObjectOf index levels above type (object.addField s) := by
  obtain ⟨label, fields, rfl, htype, hfields⟩ := h
  unfold Schema.addField
  split
  · rename_i heq _
    cases heq
    exact ⟨label, _, rfl, htype,
      forall_insertPair (motive := fun f => Expansion index levels above f.2) hfields hs⟩
  · exact ⟨label, fields, rfl, htype, hfields⟩

end IsObjectOf

/-- The parts of a type, where they are available, are expansions. -/
def PartsExpanded (index : TypeIndex) (levels : Nat) (above : List String)
    (part : TypeTerm → Schema) : Prop :=
  ∀ u, (part u).isAvailable = true → Expansion index levels above (part u)

theorem Standard.Answer.expansion {index : TypeIndex} {part : TypeTerm → Schema} {t : TypeTerm}
    {s : Schema} {levels : Nat} {above : List String} (h : Standard.Answer index part t s)
    (parts : PartsExpanded index levels above part) (available : s.isAvailable = true) :
    Expansion index (levels + 1) above s := by
  have weaker : ∀ u, (part u).isAvailable = true →
      Expansion index (levels + 1) above (part u) :=
    fun u hu => (parts u hu).weaken (Nat.le_succ _) (List.Subset.refl _)
  cases h with
  | primitive => exact .primitive
  | text => exact .text
  | optional u =>
    have hu : (part u).isAvailable = true := by
      rwa [Schema.isAvailable_withRequired] at available
    exact (weaker u hu).mapLabel rfl
  | elements u hu => exact .array (parts u hu)
  | map known undeclared => exact .map known undeclared rfl
  | held u => exact weaker u available

theorem Declared.Answer.expansion {index : TypeIndex} {expanding : List String}
    {inner : TypeTerm → Logged Schema} {t : TypeTerm} {s : Schema} {levels : Nat}
    (h : Declared.Answer index expanding inner t s)
    (parts : PartsExpanded index levels (t.text :: expanding) fun u => (inner u).value)
    (available : s.isAvailable = true) : Expansion index (levels + 1) expanding s := by
  cases h with
  | undeclared => exact absurd available Bool.false_ne_true
  | choice name variants =>
    obtain ⟨remark, he⟩ := Declared.choice_eq name variants
    rw [he]
    exact .text
  | marker => exact .marker
  | record r declared new =>
    have object : IsObjectOf index levels (t.text :: expanding) t.text
        (Declared.addFields inner r t (.emptyObject t.text) r.fields).value := by
      refine Declared.addFields_induction ?_ ?_ ?_ r.fields
      · exact fun object u h hu => h.merge (parts u hu)
      · exact fun object f u h hu => h.addField ((parts u hu).applyField f)
      · exact ⟨_, [], rfl, rfl, fun _ hf => absurd hf List.not_mem_nil⟩
    obtain ⟨label, fields, he, htype, hfields⟩ := object
    rw [he]
    exact .record declared htype new hfields
  | synonym target =>
    exact (parts target available).weaken (Nat.le_succ _) (List.subset_cons_self _ _)

namespace Chain

/-- Available descriptions of the chain without plugins are expansions. -/
theorem expansion_resolveAt (index : TypeIndex) (levels : Nat) (expanding : List String) :
    PartsExpanded index levels expanding
      fun t => (standard.resolveAt index levels expanding t).value := by
  induction levels generalizing expanding with
  | zero => exact fun t _ => .marker
  | succ levels ih =>
    intro t available
    -- a resolver asks with the same stack, a declaration with its own text on it
    have parts : PartsExpanded index levels expanding
        (standard.scopeAt index levels expanding).part := ih expanding
    rcases standard.resolveAt_succ_cases index levels expanding t
      with ⟨r, hr, -, -⟩ | answer | answer
    · exact absurd hr List.not_mem_nil
    · exact answer.expansion parts available
    · exact answer.expansion (ih (t.text :: expanding)) available

/-- What is unavailable has no parts. -/
theorem resolveAt_eq_of_unavailable (index : TypeIndex) (levels : Nat) (expanding : List String)
    (t : TypeTerm)
    (h : (standard.resolveAt index levels expanding t).value.isAvailable = false) :
    ∃ label, (standard.resolveAt index levels expanding t).value = .object label false [] := by
  induction levels generalizing expanding t with
  | zero => cases h
  | succ levels ih =>
    rcases standard.resolveAt_succ_cases index levels expanding t
      with ⟨r, hr, -, -⟩ | answer | answer
    · exact absurd hr List.not_mem_nil
    · generalize (standard.resolveAt index (levels + 1) expanding t).value = s at answer h ⊢
      cases answer with
      | primitive => cases h
      | text => cases h
      | elements => cases h
      | map => cases h
      | optional u =>
        have hu : (standard.resolveAt index levels expanding u).value.isAvailable = false := by
          rwa [Schema.isAvailable_withRequired] at h
        obtain ⟨label, he⟩ := ih expanding u hu
        refine ⟨{ label with required := false }, ?_⟩
        show ((standard.resolveAt index levels expanding u).value).withRequired false = _
        rw [he]
        rfl
      | held u => exact ih expanding u h
    · generalize (standard.resolveAt index (levels + 1) expanding t).value = s at answer h ⊢
      cases answer with
      | undeclared => exact ⟨_, rfl⟩
      | choice name variants =>
        obtain ⟨remark, he⟩ := Declared.choice_eq name variants
        rw [he] at h
        cases h
      | marker => cases h
      | record r =>
        -- a structure is available even if none of its fields is
        refine absurd ?_ (Bool.eq_false_iff.mp h)
        refine Declared.addFields_induction (motive := fun s => s.isAvailable = true) ?_ ?_ rfl
          r.fields
        · exact fun object u ho _ => by rwa [Schema.isAvailable, Schema.label_merge]
        · exact fun object f u ho _ => by rwa [Schema.isAvailable, Schema.label_addField]
      | synonym target => exact ih (t.text :: expanding) target h

end Chain

/-! ### Branches -/

/-- An object with the text of a map that is not declared, and like it without fields. -/
def IsMap (index : TypeIndex) (s : Schema) : Prop :=
  s.parts = [] ∧ ∃ t, Standard.isOneOf t Standard.maps = true ∧ index.find? t.name = none ∧
    s.label.type = t.text

/-- A name without brackets, such as an identifier. -/
def IsPlain (name : String) : Prop := name.toList.all (fun c => c != '<' && c != '[') = true

instance (name : String) : Decidable (IsPlain name) :=
  inferInstanceAs (Decidable (name.toList.all (fun c => c != '<' && c != '[') = true))

/-- The text of a type tells its name, if names are plain. -/
theorem name_eq_of_text_eq {t u : TypeTerm} (ht : IsPlain t.name) (hu : IsPlain u.name)
    (h : t.text = u.text) : t.name = u.name := by
  have upToBracket : ∀ v : TypeTerm, IsPlain v.name →
      v.text.toList.takeWhile (fun c => c != '<' && c != '[') = v.name.toList := by
    intro v hv
    obtain ⟨rest, he, hrest⟩ := v.text_eq_append
    rw [he, List.takeWhile_append_of_pos (List.all_eq_true.mp hv)]
    cases rest with
    | nil => exact List.append_nil _
    | cons c rest =>
      rcases hrest c rfl with rfl | rfl <;> exact List.append_nil _
  have same := upToBracket t ht
  rw [h, upToBracket u hu] at same
  exact String.toList_injective same.symm

/-- An object with the text of a declared type is no map, if the declared names are identifiers. -/
theorem not_isMap_of_declared {index : TypeIndex} (names : ∀ d ∈ index.shapes, IsPlain d.1)
    {t : TypeTerm} {shape : Shape} (declared : index.find? t.name = some shape) {s : Schema}
    (htype : s.label.type = t.text) : ¬ IsMap index s := by
  rintro ⟨-, u, known, undeclared, hu⟩
  have hmaps : ∀ name ∈ Standard.maps, IsPlain name := by decide
  rw [Standard.isOneOf, Bool.and_eq_true, List.contains_iff_mem] at known
  have ht : IsPlain t.name := names (t.name, shape) (mem_of_lookup declared)
  rw [name_eq_of_text_eq ht (hmaps _ known.2) (htype.symm.trans hu), undeclared] at declared
  cases declared

/-- Two nodes, one below the other, of which not both stand for the same structure. -/
def Differ (index : TypeIndex) (s p : Schema) : Prop :=
  s.isExpanded = true → p.isExpanded = true → ¬ IsMap index p → s.label.type ≠ p.label.type

/-- Two nodes, one below the other, of which not both stand for the same declared type. -/
def DeclaredDiffer (index : TypeIndex) (s p : Schema) : Prop :=
  s.isExpanded = true → p.isExpanded = true →
    (∃ (t : TypeTerm) (shape : Shape), index.find? t.name = some shape ∧ p.label.type = t.text) →
      s.label.type ≠ p.label.type

namespace Expansion
open Schema

variable {index : TypeIndex} {levels : Nat} {above : List String} {s p : Schema}
  {path : List Schema}

/-- **One step down a branch**: an open node uses up a level, and if it is an object, it puts its
text on the stack. -/
theorem of_mem_parts (h : Expansion index levels above s) (hp : p ∈ s.parts) :
    ∃ n, levels = n + 1 ∧
      (s.isArray = true ∧ Expansion index n above p ∨
        s.isExpanded = true ∧ Expansion index n (s.label.type :: above) p) := by
  cases h with
  | primitive => exact absurd hp List.not_mem_nil
  | text => exact absurd hp List.not_mem_nil
  | marker => exact absurd hp List.not_mem_nil
  | map => exact absurd hp List.not_mem_nil
  | @array n _ _ element helement =>
    rw [List.mem_singleton.mp hp]
    exact ⟨n, rfl, .inl ⟨rfl, helement⟩⟩
  | @record n _ label _ _ fields _ htype _ hfields =>
    obtain ⟨f, hf, rfl⟩ := List.mem_map.mp hp
    refine ⟨n, rfl, .inr ⟨rfl, ?_⟩⟩
    show Expansion index n (label.type :: above) f.2
    rw [htype]
    exact hfields f hf

theorem isNested_singleton (h : Expansion index levels above s) : IsNested levels [s] := by
  cases h with
  | primitive => exact isNested_last _ (.inl rfl)
  | text => exact isNested_last _ (.inl rfl)
  | marker => exact isNested_last _ (.inr rfl)
  | array => exact (isNested_nil.cons rfl).mono (by omega)
  | map => exact (isNested_nil.cons rfl).mono (by omega)
  | record => exact (isNested_nil.cons rfl).mono (by omega)

/-- Every level of a branch is paid for. -/
theorem isNested (h : Expansion index levels above s) (hb : Branch s path) :
    IsNested levels path := by
  induction hb generalizing levels above with
  | leaf => exact h.isNested_singleton
  | part hp _ ih =>
    obtain ⟨n, rfl, ⟨harray, hn⟩ | ⟨hobject, hn⟩⟩ := h.of_mem_parts hp
    · exact (ih hn).cons (by rw [isOpen, harray, Bool.true_or])
    · exact (ih hn).cons (by rw [isOpen, hobject, Bool.or_true])

/-- A structure is none of those above. -/
theorem type_notMem (h : Expansion index levels above s) (hs : s.isExpanded = true)
    (hmap : ¬ IsMap index s) : s.label.type ∉ above := by
  cases h with
  | primitive => cases hs
  | text => cases hs
  | marker => cases hs
  | array => cases hs
  | map known undeclared htype => exact absurd ⟨rfl, _, known, undeclared, htype⟩ hmap
  | record _ htype new _ =>
    intro hmem
    exact new (htype ▸ hmem)

theorem types_notMem (h : Expansion index levels above s) (hb : Branch s path) :
    ∀ p ∈ path, p.isExpanded = true → ¬ IsMap index p → p.label.type ∉ above := by
  induction hb generalizing levels above with
  | leaf =>
    intro p hp
    rw [List.mem_singleton.mp hp]
    exact h.type_notMem
  | part hpart _ ih =>
    intro p hp
    rcases List.mem_cons.mp hp with rfl | hp
    · exact h.type_notMem
    · obtain ⟨n, -, ⟨-, hn⟩ | ⟨-, hn⟩⟩ := h.of_mem_parts hpart
      · exact ih hn p hp
      · exact fun hs hmap hmem => ih hn p hp hs hmap (List.mem_cons_of_mem _ hmem)

/-- **No structure stands inside itself.** -/
theorem pairwise_differ (h : Expansion index levels above s) (hb : Branch s path) :
    path.Pairwise (Differ index) := by
  induction hb generalizing levels above with
  | leaf => exact List.pairwise_singleton _ _
  | part hpart rest ih =>
    obtain ⟨n, -, ⟨harray, hn⟩ | ⟨-, hn⟩⟩ := h.of_mem_parts hpart
    · -- an array is no structure, so it differs from whatever stands below it
      refine List.pairwise_cons.mpr ⟨fun p _ hs => ?_, ih hn⟩
      rw [isExpanded_eq_false_of_isArray harray] at hs
      cases hs
    · -- the text of an object is among those above for all that stands below it
      refine List.pairwise_cons.mpr ⟨fun p hp _ hexp hmap he => ?_, ih hn⟩
      refine hn.types_notMem rest p hp hexp hmap ?_
      rw [he]
      exact List.mem_cons_self

end Expansion

/-! ### The stack of a run -/

namespace Chain

variable {chain : Chain} {index : TypeIndex}

/-- Calls of which each leads to the next are no more than the levels. -/
theorem length_le_levels {c : Call} {calls : List Call}
    (h : List.IsChain (chain.Leads index) (c :: calls)) : calls.length ≤ c.levels := by
  induction calls generalizing c with
  | nil => exact Nat.zero_le _
  | cons d calls ih =>
    obtain ⟨step, rest⟩ := List.isChain_cons_cons.mp h
    have hlevels := step.levels_eq
    have hlength := ih rest
    rw [List.length_cons]
    omega

/-- What a run puts on the stack is new, and paid for with levels. -/
theorem Reaches.stack {c d : Call} (h : chain.Reaches index c d) (nodup : c.expanding.Nodup) :
    d.expanding.Nodup ∧ d.expanding.length + d.levels ≤ c.expanding.length + c.levels := by
  induction h with
  | refl => exact ⟨nodup, Nat.le_refl _⟩
  | tail _ step ih =>
    obtain ⟨hnodup, hlength⟩ := ih
    have hlevels := step.levels_eq
    rcases step.expanding_cases with he | ⟨new, he⟩
    · rw [he]
      exact ⟨hnodup, by omega⟩
    · rw [he]
      refine ⟨List.nodup_cons.mpr ⟨new, hnodup⟩, ?_⟩
      rw [List.length_cons]
      omega

/-- The branches of a description, whether it is available or not. -/
theorem branch_resolve {t : TypeTerm} {path : List Schema}
    (hb : Schema.Branch (standard.resolve index t).value path) :
    Schema.IsNested maxNesting path ∧ path.Pairwise (Differ index) := by
  cases available : (standard.resolve index t).value.isAvailable with
  | true =>
    have h := expansion_resolveAt index maxNesting [] t available
    exact ⟨h.isNested hb, h.pairwise_differ hb⟩
  | false =>
    obtain ⟨label, he⟩ := resolveAt_eq_of_unavailable index maxNesting [] t available
    have single : path = [.object label false []] := by
      rw [show (standard.resolve index t).value = _ from he] at hb
      exact hb.eq_of_parts rfl
    rw [single]
    refine ⟨(Schema.isNested_nil.cons rfl).mono (by decide), ?_⟩
    exact List.pairwise_singleton _ _

/-- If the declared names are identifiers, the nodes with the texts of declared types all differ. -/
theorem pairwise_type_ne (names : ∀ d ∈ index.shapes, IsPlain d.1) {t : TypeTerm}
    {path : List Schema} (hb : Schema.Branch (standard.resolve index t).value path) :
    path.Pairwise (DeclaredDiffer index) := by
  refine (branch_resolve hb).2.imp ?_
  rintro s p differ hs hp ⟨u, shape, declared, htype⟩
  exact differ hs hp (not_isMap_of_declared names declared htype)

/-- **The guard against recursion.**  For every index and every type, a chain of nested calls is no
longer than the levels allow; no text comes onto the stack of the types being described twice; on
every branch of the description at most `maxNesting` arrays and objects are followed by at most one
scalar or marker; and no two structures on a branch are of the same type.  If the declared names are
identifiers, the text of a declared type stands for it alone, and no branch has one twice. -/
theorem resolve_guarded (index : TypeIndex) (t : TypeTerm) :
    (∀ calls, List.IsChain (standard.Leads index) (⟨maxNesting, [], t⟩ :: calls) →
      calls.length ≤ maxNesting) ∧
    (∀ c, standard.Reaches index ⟨maxNesting, [], t⟩ c →
      c.expanding.Nodup ∧ c.expanding.length + c.levels ≤ maxNesting) ∧
    (∀ path, Schema.Branch (standard.resolve index t).value path →
      Schema.IsNested maxNesting path ∧ path.Pairwise (Differ index)) ∧
    ((∀ d ∈ index.shapes, IsPlain d.1) →
      ∀ path, Schema.Branch (standard.resolve index t).value path →
        path.Pairwise (DeclaredDiffer index)) := by
  refine ⟨fun calls h => length_le_levels h, fun c h => ?_, fun path hb => branch_resolve hb,
    fun names path hb => pairwise_type_ne names hb⟩
  obtain ⟨nodup, hlength⟩ := h.stack List.nodup_nil
  refine ⟨nodup, ?_⟩
  rwa [List.length_nil, Nat.zero_add] at hlength

/-- Trees, which hold a list of trees each. -/
def treeIndex : TypeIndex where
  shapes :=
    [("Tree", .record ⟨"Tree", [],
      [⟨"branches", .applied "Vec" [.named "Tree"], .none, none, none⟩]⟩)]

/-- The description of a tree has a branch with a marker at its end. -/
theorem tree_guarded :
    ∃ root list marker : Schema,
      Schema.Branch (standard.resolve treeIndex (.named "Tree")).value [root, list, marker] ∧
      marker.isMarker = true ∧ Schema.IsNested maxNesting [root, list, marker] ∧
      [root, list, marker].Pairwise (Differ treeIndex) ∧
      [root, list, marker].Pairwise (DeclaredDiffer treeIndex) := by
  let marker : Schema := .recursive "Tree"
  let list : Schema := .array { Label.ofType "Tree[]" with key := some "branches" } marker
  let root : Schema := .object (Label.ofType "Tree") false [("branches", list)]
  have described : (standard.resolve treeIndex (.named "Tree")).value = root := rfl
  have branch :
      Schema.Branch (standard.resolve treeIndex (.named "Tree")).value [root, list, marker] := by
    rw [described]
    exact .part List.mem_cons_self (.part List.mem_cons_self (.leaf rfl))
  have names : ∀ d ∈ treeIndex.shapes, IsPlain d.1 := by decide
  obtain ⟨-, -, guarded, declared⟩ := resolve_guarded treeIndex (.named "Tree")
  obtain ⟨nested, differ⟩ := guarded _ branch
  exact ⟨root, list, marker, branch, rfl, nested, differ, declared names _ branch⟩

end Chain
end RouteBook
