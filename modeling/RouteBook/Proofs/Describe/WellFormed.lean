import RouteBook.Proofs.Describe.Answers
import RouteBook.Proofs.Schema.WellFormed
import RouteBook.Spring.Endpoints
/-! # Descriptions are well formed

Whatever the index declares, an available description is well formed: everything below its root is
available, fields carry the keys under which they are kept, and only scalars have fallback values
(`Chain.available_resolve_wellFormed`).

The induction is on the levels that are left.  What carries it is not well-formedness itself, since
an unavailable description is not well formed, but *available descriptions are well formed*: each
resolver that builds on a part has to look whether the part is available first, and that is exactly
what its case below uses.
-/
namespace RouteBook
open Schema

/-! ### One answer -/

/-- The parts of a type are described well, where they are available. -/
def PartsWellFormed (part : TypeTerm → Schema) : Prop :=
  ∀ u, (part u).isAvailable = true → WellFormed none (part u)

theorem Standard.Answer.wellFormed {index : TypeIndex} {part : TypeTerm → Schema} {t : TypeTerm}
    {s : Schema} (h : Standard.Answer index part t s) (parts : PartsWellFormed part)
    (available : s.isAvailable = true) : WellFormed none s := by
  cases h with
  | primitive sample => exact wellFormed_ofPrimitive _ sample
  | text type => exact wellFormed_ofText type ""
  | optional u =>
    have hu : (part u).isAvailable = true := by rwa [isAvailable_withRequired] at available
    exact (parts u hu).withRequired false
  | elements u hu => exact (parts u hu).ofElement
  | map => exact wellFormed_emptyObject t.text
  | held u => exact parts u available

/-- Several fields go into an object, each under its own key. -/
theorem Schema.WellFormed.foldl_addField {key : Option String} {object : Schema}
    {fields : List Schema} (h : WellFormed key object)
    (hfields : ∀ f ∈ fields, ∃ fieldKey, WellFormed (some fieldKey) f) :
    WellFormed key (fields.foldl Schema.addField object) := by
  induction fields generalizing object with
  | nil => exact h
  | cons f fields ih =>
    obtain ⟨fieldKey, hf⟩ := hfields f List.mem_cons_self
    exact ih (h.addField hf) fun g hg => hfields g (List.mem_cons_of_mem _ hg)

namespace Spring

theorem wellFormed_counter (key type remark : String) :
    WellFormed (some key) (counter key type remark) :=
  ((wellFormed_ofPrimitive type _).withKey key).addRemark remark

theorem wellFormed_page {t : TypeTerm} {item : Schema} (h : WellFormed none item) :
    WellFormed none (page t item) := by
  refine (wellFormed_emptyObject t.text).foldl_addField ?_
  intro f hf
  rcases List.mem_cons.mp hf with rfl | hf
  · exact ⟨_, (h.ofElement.withKey "content").addRemark _⟩
  · simp only [pageCounters, List.mem_cons, List.not_mem_nil, or_false] at hf
    rcases hf with rfl | rfl | rfl | rfl <;> exact ⟨_, wellFormed_counter _ _ _⟩

theorem wellFormed_pageable : WellFormed none pageable := by
  refine (wellFormed_emptyObject "Pageable").foldl_addField ?_
  intro f hf
  simp only [List.mem_cons, List.not_mem_nil, or_false] at hf
  rcases hf with rfl | rfl | rfl
  · exact ⟨_, ((wellFormed_counter _ _ _).withRequired false).setFallback "0"⟩
  · exact ⟨_, ((wellFormed_counter _ _ _).withRequired false).setFallback "20"⟩
  · exact ⟨_, (((wellFormed_ofText _ _).withKey "sort").withRequired false).addRemark _⟩

theorem Answer.wellFormed {part : TypeTerm → Schema} {t : TypeTerm} {s : Schema}
    (h : Answer part t s) (parts : PartsWellFormed part) (available : s.isAvailable = true) :
    WellFormed none s := by
  cases h with
  | held u => exact parts u available
  | file => exact (wellFormed_ofText _ _).addRemark _
  | page u hu => exact wellFormed_page (parts u hu)
  | pageable => exact wellFormed_pageable

end Spring

namespace Declared

theorem wellFormed_choice (name : String) (variants : List String) :
    WellFormed none (choice name variants) := by
  obtain ⟨remark, he⟩ := choice_eq name variants
  rw [he]
  exact .text rfl rfl

/-- Whatever a field says about its schema, it stands under the key of the field. -/
theorem wellFormed_applyField {s : Schema} (f : FieldShape) (h : WellFormed none s) :
    WellFormed (some f.key) (applyField f s) :=
  applyField_induction f (h.withKey f.key) (fun _ h => h.withRequired false)
    (fun _ remark h => h.addRemark remark) fun _ written h => h.setFallback written

theorem Answer.wellFormed {index : TypeIndex} {expanding : List String}
    {inner : TypeTerm → Logged Schema} {t : TypeTerm} {s : Schema}
    (h : Answer index expanding inner t s) (parts : PartsWellFormed fun u => (inner u).value)
    (available : s.isAvailable = true) : WellFormed none s := by
  cases h with
  | undeclared => exact absurd available Bool.false_ne_true
  | choice name variants => exact wellFormed_choice name variants
  | marker => exact wellFormed_recursive t.text
  | record r =>
    refine addFields_induction (motive := WellFormed none) ?_ ?_
      (wellFormed_emptyObject t.text) r.fields
    · exact fun object u h hu => h.merge (parts u hu)
    · exact fun object f u h hu => h.addField (wellFormed_applyField f (parts u hu))
  | synonym target => exact parts target available

end Declared

/-! ### A whole description -/

namespace Chain

/-- Available descriptions are well formed, with however many levels left and whatever types being
described further up. -/
theorem resolveAt_wellFormed {chain : Chain} (hchain : chain.IsBuiltIn) (index : TypeIndex)
    (levels : Nat) (expanding : List String) :
    PartsWellFormed fun t => (chain.resolveAt index levels expanding t).value := by
  induction levels generalizing expanding with
  | zero => exact fun t _ => wellFormed_recursive t.text
  | succ levels ih =>
    intro t available
    -- a resolver asks with the same stack, a declaration with its own text on it
    have parts : PartsWellFormed (chain.scopeAt index levels expanding).part := ih expanding
    rcases chain.resolveAt_succ_cases index levels expanding t
      with ⟨r, hr, hav, he⟩ | answer | answer
    · cases hchain.eq_component hr
      show WellFormed none (chain.resolveAt index (levels + 1) expanding t).value
      rw [he]
      exact (Spring.answer_component hav).wellFormed parts hav
    · exact answer.wellFormed parts available
    · exact answer.wellFormed (ih (t.text :: expanding)) available

end Chain

/-! ### Request parameters -/

namespace Spring

/-- A parameter whose value is no object becomes a field with its key. -/
theorem wellFormed_paramField {s : Schema} (e : Endpoint) (p : HandlerParam) (key : String)
    (h : WellFormed none s) : WellFormed (some key) (paramField e p key s) := by
  unfold paramField
  split
  · rename_i remark _
    have remarked := h.addRemark remark
    split
    · exact (remarked.setFallback _).withKey key
    · exact remarked.withKey key
  · split
    · exact (h.setFallback _).withKey key
    · exact h.withKey key

theorem wellFormed_applyRequired {s : Schema} (p : HandlerParam) (h : WellFormed none s) :
    WellFormed none (applyRequired p s) := by
  unfold applyRequired
  split
  · exact h.withRequired _
  · exact h

/-- One more request parameter keeps the object of all of them well formed. -/
theorem wellFormed_mergeParam {types : Types}
    (parts : PartsWellFormed fun t => (types.resolve t).value) (h : Handler) (e : Endpoint)
    {merged : Schema} (hmerged : WellFormed none merged) (p : HandlerParam) :
    WellFormed none (mergeParam types h e merged p).value := by
  cases available : (types.resolve p.type).value.isAvailable with
  | false => simpa [mergeParam, available] using hmerged
  | true =>
    have hs := wellFormed_applyRequired p (parts p.type available)
    cases hobject : (applyRequired p (types.resolve p.type).value).isObject with
    | true => simpa [mergeParam, available, hobject] using hmerged.merge hs
    | false =>
      cases hname : clientName? p requestParam with
      | none => simpa [mergeParam, available, hobject, hname] using hmerged
      | some key =>
        have hfield := wellFormed_paramField e p key hs
        simpa [mergeParam, available, hobject, hname] using hmerged.addField hfield

theorem wellFormed_mergedParams {types : Types}
    (parts : PartsWellFormed fun t => (types.resolve t).value) (h : Handler) (e : Endpoint) :
    WellFormed none (mergedParams types h e).value := by
  rw [mergedParams, Logged.value_foldlM]
  refine List.foldlRecOn _ _ (motive := WellFormed none) (wellFormed_emptyObject "") ?_
  exact fun merged hmerged p _ => wellFormed_mergeParam parts h e hmerged p

end Spring

/-- **Descriptions are well formed.**  For every index, an available description of any type is well
formed and carries no key, and so is the object of the request parameters of any handler. -/
theorem Chain.available_resolve_wellFormed (chain : Chain) (hchain : chain.IsBuiltIn)
    (index : TypeIndex) :
    (∀ t, (chain.resolve index t).value.isAvailable = true →
      WellFormed none (chain.resolve index t).value) ∧
    ∀ h e, WellFormed none (Spring.mergedParams ⟨chain, index⟩ h e).value := by
  have parts := resolveAt_wellFormed hchain index maxNesting []
  exact ⟨parts, Spring.wellFormed_mergedParams parts⟩

/-- A declared structure that holds nodes of its own kind and takes in the fields of another one. -/
def nodeIndex : TypeIndex where
  shapes :=
    [("Node", .record ⟨"Node", [],
      [⟨"label", .named "String", { FieldRules.none with default := true }, some "root", none⟩,
        ⟨"children", .applied "Vec" [.named "Node"],
          { FieldRules.none with rename := some "nodes" }, none, none⟩,
        ⟨"stamp", .named "Stamp", { FieldRules.none with flatten := true }, none, none⟩]⟩),
      ("Stamp", .record ⟨"Stamp", [],
        [⟨"at", .named "u64", .none, none, some "seconds"⟩]⟩)]

/-- Pages of nodes have an available description, so it is well formed. -/
theorem wellFormed_page_of_nodes :
    (Spring.chain.resolve nodeIndex (.applied "Page" [.named "Node"])).value.isAvailable = true ∧
      WellFormed none
        (Spring.chain.resolve nodeIndex (.applied "Page" [.named "Node"])).value := by
  have available : (Spring.chain.resolve nodeIndex
      (.applied "Page" [.named "Node"])).value.isAvailable = true := by decide +kernel
  have described := Chain.available_resolve_wellFormed Spring.chain (.inr rfl) nodeIndex
  exact ⟨available, described.1 _ available⟩

end RouteBook
