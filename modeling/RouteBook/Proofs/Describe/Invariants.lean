import RouteBook.Proofs.Describe.Answers
import RouteBook.Proofs.Schema.Fields
import RouteBook.Proofs.Schema.Places
/-! # Invariants of descriptions

Descriptions are made with few operations: scalars, objects without fields and arrays, edits of the
label at the root, and adding and merging fields.  A property that all of them preserve is an
`Schema.Invariant`, and it holds of every available description (`Chain.invariant_resolveAt`).  The
proof opens no resolver: what a resolver can answer is said by `Standard.Answer`, `Spring.Answer` and
`Declared.Answer`, and the induction is on the levels that are left.

The first instance is that descriptions are *tidy* (`Schema.isTidy`): no two fields of an object have
one key, and the values at the scalars have no parts.
-/
namespace RouteBook
open Schema

/-- **What all operations that make descriptions preserve.** -/
structure Schema.Invariant (P : Schema → Prop) : Prop where
  ofPrimitive : ∀ type sample, sample.isScalar = true → P (ofPrimitive type sample)
  ofText : ∀ type sample, P (ofText type sample)
  emptyObject : ∀ type, P (emptyObject type)
  recursive : ∀ type, P (recursive type)
  ofElement : ∀ s, P s → P (ofElement s)
  /-- A new label at the root, with the fallback value of the old one. -/
  mapLabel : ∀ s f, (f s.label).fallback = s.label.fallback → P s → P (s.mapLabel f)
  setFallback : ∀ s written, P s → P (s.setFallback written)
  addField : ∀ s field, P s → P field → P (s.addField field)
  merge : ∀ s other, P s → P other → P (s.merge other)

namespace Schema.Invariant

variable {P : Schema → Prop} (h : Schema.Invariant P) {s : Schema}
include h

theorem withKey (key : String) (hs : P s) : P (s.withKey key) := h.mapLabel s _ rfl hs

theorem withRequired (required : Bool) (hs : P s) : P (s.withRequired required) :=
  h.mapLabel s _ rfl hs

theorem addRemark (remark : String) (hs : P s) : P (s.addRemark remark) := by
  obtain ⟨after, he⟩ := Label.addRemark_eq s.label remark
  exact h.mapLabel s _ (by rw [he]) hs

theorem foldl_addField {fields : List Schema} (hs : P s) (hfields : ∀ f ∈ fields, P f) :
    P (fields.foldl Schema.addField s) := by
  induction fields generalizing s with
  | nil => exact hs
  | cons f fields ih =>
    have first := h.addField s f hs (hfields f List.mem_cons_self)
    exact ih first fun g hg => hfields g (List.mem_cons_of_mem _ hg)

theorem applyField (f : FieldShape) (hs : P s) : P (Declared.applyField f s) :=
  Declared.applyField_induction f (h.withKey f.key hs) (fun _ => h.withRequired false)
    (fun _ remark => h.addRemark remark) fun s written => h.setFallback s written

/-! ### One answer -/

theorem standard {index : TypeIndex} {part : TypeTerm → Schema} {t : TypeTerm}
    (parts : ∀ u, (part u).isAvailable = true → P (part u)) (answer : Standard.Answer index part t s)
    (available : s.isAvailable = true) : P s := by
  cases answer with
  | primitive sample scalar => exact h.ofPrimitive t.name sample scalar
  | text type => exact h.ofText type ""
  | optional u =>
    rw [isAvailable_withRequired] at available
    exact h.withRequired false (parts u available)
  | elements u hu => exact h.ofElement _ (parts u hu)
  | map => exact h.emptyObject t.text
  | held u => exact parts u available

theorem counter (key type remark : String) : P (Spring.counter key type remark) :=
  h.addRemark remark (h.withKey key (h.ofPrimitive type (.ofInt 0) rfl))

theorem page (t : TypeTerm) {item : Schema} (hitem : P item) : P (Spring.page t item) := by
  refine h.foldl_addField (h.emptyObject t.text) ?_
  intro f hf
  rcases List.mem_cons.mp hf with rfl | hf
  · exact h.addRemark _ (h.withKey "content" (h.ofElement item hitem))
  · simp only [Spring.pageCounters, List.mem_cons, List.not_mem_nil, or_false] at hf
    rcases hf with rfl | rfl | rfl | rfl <;> exact h.counter _ _ _

theorem pageable : P Spring.pageable := by
  refine h.foldl_addField (h.emptyObject "Pageable") ?_
  intro f hf
  simp only [List.mem_cons, List.not_mem_nil, or_false] at hf
  rcases hf with rfl | rfl | rfl
  · exact h.setFallback _ "0" (h.withRequired false (h.counter _ _ _))
  · exact h.setFallback _ "20" (h.withRequired false (h.counter _ _ _))
  · exact h.addRemark _ (h.withRequired false (h.withKey "sort" (h.ofText _ _)))

theorem spring {part : TypeTerm → Schema} {t : TypeTerm}
    (parts : ∀ u, (part u).isAvailable = true → P (part u)) (answer : Spring.Answer part t s)
    (available : s.isAvailable = true) : P s := by
  cases answer with
  | held u => exact parts u available
  | file => exact h.addRemark _ (h.ofText "File" "")
  | page u hu => exact h.page t (parts u hu)
  | pageable => exact h.pageable

theorem choice (name : String) (variants : List String) : P (Declared.choice name variants) := by
  unfold Declared.choice
  split
  · exact h.ofText name _
  · exact h.addRemark _ (h.ofText name _)

theorem declared {index : TypeIndex} {expanding : List String} {inner : TypeTerm → Logged Schema}
    {t : TypeTerm} (parts : ∀ u, (inner u).value.isAvailable = true → P (inner u).value)
    (answer : Declared.Answer index expanding inner t s) (available : s.isAvailable = true) :
    P s := by
  cases answer with
  | undeclared => exact absurd available Bool.false_ne_true
  | choice name variants => exact h.choice name variants
  | marker => exact h.recursive t.text
  | record r =>
    refine Declared.addFields_induction (motive := P) ?_ ?_ (h.emptyObject t.text) r.fields
    · exact fun object u hobject hu => h.merge object _ hobject (parts u hu)
    · exact fun object f u hobject hu => h.addField object _ hobject (h.applyField f (parts u hu))
  | synonym target => exact parts target available

end Schema.Invariant

/-! ### A whole description -/

/-- **An invariant holds of every available description**, with however many levels left and whatever
types being described further up. -/
theorem Chain.invariant_resolveAt {P : Schema → Prop} (h : Schema.Invariant P) {chain : Chain}
    (hchain : chain.IsBuiltIn) (index : TypeIndex) (levels : Nat) (expanding : List String)
    (t : TypeTerm) (available : (chain.resolveAt index levels expanding t).value.isAvailable = true) :
    P (chain.resolveAt index levels expanding t).value := by
  induction levels generalizing expanding t with
  | zero => exact h.recursive t.text
  | succ levels ih =>
    rcases chain.resolveAt_succ_cases index levels expanding t
      with ⟨r, hr, hav, he⟩ | answer | answer
    · rw [he]
      rw [hchain.eq_component hr] at hav ⊢
      exact h.spring (ih expanding) (Spring.answer_component hav) hav
    · exact h.standard (ih expanding) answer available
    · exact h.declared (ih (t.text :: expanding)) answer available

/-! ### Tidy descriptions -/

namespace Schema

/-- Whether the values at a node have no parts. -/
def hasScalarValues : Schema → Bool
  | .primitive label sample => sample.isScalar && label.fallback.all Json.isScalar
  | .text label _ => label.fallback.all Json.isScalar
  | .array label _ => label.fallback.all Json.isScalar
  | .object label _ _ => label.fallback.all Json.isScalar

/-- Whether no two fields of a node have one key, and the values at it have no parts. -/
def isTidy (s : Schema) : Bool := s.hasDistinctKeys && s.hasScalarValues

/-- A fallback that is read from a text has no parts. -/
theorem isScalar_valueLike (sample : Json) (written : String) :
    (valueLike sample written).isScalar = true := by
  unfold valueLike
  dsimp only
  split
  · split
    · rfl
    · split <;> rfl
  · split <;> rfl
  · split <;> rfl
  · rfl

variable {s other : Schema}

theorem isTidy_object_iff {label : Label} {isRecursive : Bool} {fields : List (String × Schema)} :
    (object label isRecursive fields).all isTidy = true ↔
      (fields.map Prod.fst).Nodup ∧ label.fallback.all Json.isScalar = true ∧
        ∀ f ∈ fields, f.2.all isTidy = true := by
  rw [all, Bool.and_eq_true, allOfFields_iff, isTidy, Bool.and_eq_true, hasDistinctKeys_iff,
    hasScalarValues, and_assoc]
  rfl

theorem scalar_fallback_of_isTidy (hs : s.all isTidy = true) :
    s.label.fallback.all Json.isScalar = true := by
  have values := (Bool.and_eq_true_iff.mp (test_of_all hs)).2
  cases s with
  | primitive => exact (Bool.and_eq_true_iff.mp values).2
  | text | array | object => exact values

/-- A new label at the root keeps a schema tidy if its fallback value has no parts. -/
theorem isTidy_mapLabel {f : Label → Label} (hs : s.all isTidy = true)
    (hf : (f s.label).fallback.all Json.isScalar = true) : (s.mapLabel f).all isTidy = true := by
  cases s with
  | primitive label sample =>
    simp_all [mapLabel, all, isTidy, hasDistinctKeys, hasScalarValues, fieldKeys, Schema.label]
  | text label sample =>
    simp_all [mapLabel, all, isTidy, hasDistinctKeys, hasScalarValues, fieldKeys, Schema.label]
  | array label element =>
    simp_all [mapLabel, all, isTidy, hasDistinctKeys, hasScalarValues, fieldKeys, Schema.label]
  | object label isRecursive fields =>
    obtain ⟨distinct, -, hfields⟩ := isTidy_object_iff.mp hs
    exact isTidy_object_iff.mpr ⟨distinct, hf, hfields⟩

theorem isTidy_setFallback (hs : s.all isTidy = true) (written : String) :
    (s.setFallback written).all isTidy = true := by
  cases s with
  | primitive label sample =>
    exact isTidy_mapLabel (f := ({ · with fallback := some (valueLike sample written) })) hs
      (isScalar_valueLike sample written)
  | text label sample =>
    exact isTidy_mapLabel (f := ({ · with fallback := some (.text written) })) hs rfl
  | array | object => exact hs

theorem isTidy_addField (hs : s.all isTidy = true) (hother : other.all isTidy = true) :
    (s.addField other).all isTidy = true := by
  unfold addField
  split
  · obtain ⟨distinct, scalar, hfields⟩ := isTidy_object_iff.mp hs
    refine isTidy_object_iff.mpr ⟨?_, scalar, forall_insertPair hfields hother⟩
    exact nodup_keys_insertPair distinct
  · exact hs

/-- What a field becomes when another description of it fills in what is open is tidy. -/
theorem isTidy_complete (hs : s.all isTidy = true) (hother : other.all isTidy = true) :
    (complete s other).all isTidy = true := by
  refine isTidy_mapLabel hs ?_
  have own := scalar_fallback_of_isTidy hs
  dsimp only
  split
  · cases h : s.label.fallback with
    | none => exact scalar_fallback_of_isTidy hother
    | some value =>
      rw [h] at own
      exact own
  · exact own

theorem isTidy_merge (hs : s.all isTidy = true) (hother : other.all isTidy = true) :
    (s.merge other).all isTidy = true := by
  unfold merge
  split
  · obtain ⟨distinct, scalar, hfields⟩ := isTidy_object_iff.mp hs
    obtain ⟨-, -, hothers⟩ := isTidy_object_iff.mp hother
    refine isTidy_object_iff.mpr ⟨nodup_keys_mergeFields distinct, scalar, ?_⟩
    exact forall_mergeFields (motive := fun f => f.2.all isTidy = true)
      (fun _ _ _ hfield hnew => isTidy_complete hfield hnew) hfields hothers
  · exact hs

/-- **Tidiness is an invariant**: fields are kept by their keys, and fallbacks are read from texts. -/
theorem invariant_isTidy : Schema.Invariant fun s => s.all isTidy = true where
  ofPrimitive type sample scalar := by
    simp [ofPrimitive, all, isTidy, hasDistinctKeys, hasScalarValues, fieldKeys, Label.ofType, scalar]
  ofText _ _ := rfl
  emptyObject _ := rfl
  recursive _ := rfl
  ofElement s hs := Bool.and_eq_true_iff.mpr ⟨rfl, hs⟩
  mapLabel s f same hs := isTidy_mapLabel hs (by
    rw [same]
    exact scalar_fallback_of_isTidy hs)
  setFallback s written hs := isTidy_setFallback hs written
  addField s field hs hfield := isTidy_addField hs hfield
  merge s other hs hother := isTidy_merge hs hother

end Schema
end RouteBook
