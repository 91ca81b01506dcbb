import RouteBook.Proofs.Declared.Substitution
import RouteBook.Proofs.Describe.Arrays
import RouteBook.Proofs.Describe.Records
import RouteBook.Proofs.Spring.Unresolved
/-! # Types without names

Tuples, pointers, functions and other types without a name of their own all become the name `Unknown`
(`TypeTerm.ofExpr_of_isNameless`).  No resolver knows this name.  So what becomes of such a type is
up to the declarations: it has a description iff a type is declared under that very name, and not as
a synonym of a type without a description (`Chain.available_unknown_iff`).

Where nothing is declared under the name, fields and parameters of such types are omitted
(`Spring.nameless_omitted`).
-/
namespace RouteBook

/-- Whether a type has no name of its own: a tuple of one or more, a pointer, a function, the empty
type, a type that is left open, or what a macro makes. -/
def Source.TypeExpr.isNameless : Source.TypeExpr → Bool
  | .tuple (_ :: _) => true
  | .pointer _ => true
  | .function => true
  | .never => true
  | .inferred => true
  | .macroCall => true
  | _ => false

namespace TypeTerm

theorem ofExpr_of_isNameless {e : Source.TypeExpr} (h : e.isNameless = true) :
    ofExpr e = unknown := by
  cases e with
  | tuple elements =>
    cases elements with
    | nil => cases h
    | cons => rfl
  | pointer => rfl
  | function => rfl
  | never => rfl
  | inferred => rfl
  | macroCall => rfl
  | _ => cases h

/-- It stays unknown where no parameter has its name. -/
theorem substitute_unknown {params : List String} (apart : "Unknown" ∉ params)
    (args : List TypeTerm) : unknown.substitute (params.zip args).reverse = unknown := by
  apply substitute_eq_self_of_apart
  intro p hp h
  obtain rfl := h.eq_of_named
  exact apart hp

end TypeTerm

namespace Chain
open Declared

variable {chain : Chain} {index : TypeIndex}

/-- No resolver knows the name. -/
theorem unknown_counts (hchain : chain.IsBuiltIn) (levels : Nat) (expanding : List String) :
    chain.DeclarationCounts index levels expanding .unknown := by
  intro r hr
  have answer : r (chain.scopeAt index levels expanding) .unknown = Resolver.unknown .unknown := by
    rcases List.mem_append.mp hr with hr | hr
    · exact hchain.knows_of_mem hr _ _ rfl (by decide)
    · simp only [Standard.resolvers, List.mem_cons, List.not_mem_nil, or_false] at hr
      rcases hr with rfl | rfl | rfl | rfl | rfl | rfl
      · exact Standard.knows_primitive _ _ rfl (by decide)
      · exact Standard.knows_text _ _ rfl (by decide)
      · rfl
      · rfl
      · exact Standard.knows_map _ _ rfl (by decide)
      · rfl
  rw [answer]
  rfl

/-- **When an unknown type is described**: iff its name is declared, other than as a synonym of a type
that has no description. -/
theorem available_unknown_iff (hchain : chain.IsBuiltIn) {levels : Nat} {expanding : List String} :
    (chain.resolveAt index (levels + 1) expanding .unknown).value.isAvailable = false ↔
      index.find? "Unknown" = none ∨ ∃ target,
        index.find? "Unknown" = some (.synonym target) ∧ "Unknown" ∉ expanding ∧
        (chain.resolveAt index levels ("Unknown" :: expanding) target).value.isAvailable = false := by
  have text : TypeTerm.unknown.text = "Unknown" := by decide
  have named : TypeTerm.unknown.name = "Unknown" := rfl
  rw [value_of_counts (unknown_counts hchain levels expanding), ← Bool.not_eq_true,
    available_resolve_iff, text, named]
  constructor
  · intro unavailable
    by_cases undeclared : index.find? "Unknown" = none
    · exact .inl undeclared
    · refine .inr (Classical.byContradiction fun described => unavailable ⟨undeclared, ?_⟩)
      intro target declared
      by_cases met : "Unknown" ∈ expanding
      · exact .inl met
      · cases part : (chain.resolveAt index levels ("Unknown" :: expanding) target).value.isAvailable
        · exact absurd ⟨target, declared, met, part⟩ described
        · exact .inr rfl
  · rintro (undeclared | ⟨target, declared, new, part⟩) ⟨known, parts⟩
    · exact known undeclared
    · rcases parts target declared with met | available
      · exact new met
      · rw [part] at available
        cases available

end Chain

namespace Spring
open Declared

/-- **Types without names are omitted.**  At the top, such a type is without a description iff the name
`Unknown` is not declared, or declared as a synonym of a type without a description.

Where the name is not declared, such a type has no description wherever it stands with a level left.
A field of such a type makes no difference to a structure without a parameter of that name.  A handler
gives the same endpoints without a parameter of such a type, if that is a request parameter or a header
with a name.  And if such a parameter is the body, then nothing is sent. -/
theorem nameless_omitted (chain : Chain) (hchain : chain.IsBuiltIn) (index : TypeIndex)
    (e : Source.TypeExpr) (nameless : e.isNameless = true) :
    ((chain.resolve index (.ofExpr e)).value.isAvailable = false ↔
      index.find? "Unknown" = none ∨ ∃ target, index.find? "Unknown" = some (.synonym target) ∧
        (chain.resolveAt index (maxNesting - 1) ["Unknown"] target).value.isAvailable = false) ∧
    (index.find? "Unknown" = none →
      (∀ levels expanding,
        (chain.resolveAt index (levels + 1) expanding (.ofExpr e)).value.isAvailable = false) ∧
      (∀ levels expanding r t before f after, f.type = .ofExpr e → "Unknown" ∉ r.generics →
        (addFields (chain.resolveAt index (levels + 1) expanding) r t (.emptyObject t.text)
            (before ++ f :: after)).value =
          (addFields (chain.resolveAt index (levels + 1) expanding) r t (.emptyObject t.text)
            (before ++ after)).value) ∧
      (∀ (h : Handler) before p after baseUris e₀, p.type = .ofExpr e →
        isPathVariable p = false → isRequestBody p = false →
        (isRequestHeader p = true → ∃ key, clientName? p requestHeader = some key) →
        (endpoints ⟨chain, index⟩ baseUris (h.withParams (before ++ p :: after)) e₀).value =
          (endpoints ⟨chain, index⟩ baseUris (h.withParams (before ++ after)) e₀).value) ∧
      (∀ h p e₀, p.type = .ofExpr e → (attachBody ⟨chain, index⟩ h e₀ p).value = e₀)) := by
  have same : TypeTerm.ofExpr e = .unknown := TypeTerm.ofExpr_of_isNameless nameless
  rw [same]
  constructor
  · show (chain.resolveAt index (maxNesting - 1 + 1) [] .unknown).value.isAvailable = false ↔ _
    rw [Chain.available_unknown_iff hchain]
    simp only [List.not_mem_nil, not_false_eq_true, true_and]
  · intro undeclared
    have unavailable : ∀ levels expanding,
        (chain.resolveAt index (levels + 1) expanding .unknown).value.isAvailable = false :=
      fun _ _ => (Chain.available_unknown_iff hchain).mpr (.inl undeclared)
    have unresolved : ∀ p : HandlerParam, p.type = .unknown →
        (Types.resolve ⟨chain, index⟩ p.type).value.isAvailable = false := by
      intro p hp
      rw [hp]
      exact unavailable (maxNesting - 1) []
    refine ⟨unavailable, ?_, ?_, ?_⟩
    · intro levels expanding r t before f after hf apart
      have omitted : IsOmitted (part (chain.resolveAt index (levels + 1) expanding) r t) f := by
        refine .inr (.inl ?_)
        rw [part, hf, bindings, TypeTerm.substitute_unknown apart]
        exact unavailable levels expanding
      have walk : ∀ fs, (addFields (chain.resolveAt index (levels + 1) expanding) r t
          (.emptyObject t.text) fs).value = _ := value_addFields (Label.ofType t.text) false []
      rw [walk, walk, foldl_withField_of_omitted omitted]
    · intro h before p after baseUris e₀ hp noPathVariable noBody named
      exact endpoints_of_unresolved h before after e₀
        ⟨unresolved p hp, noPathVariable, noBody, named⟩ baseUris
    · intro h p e₀ hp
      exact value_attachBody_of_unavailable (unresolved p hp) h e₀

/-- A job, and what is called when it is done. -/
def job : RecordShape where
  name := "Job"
  generics := []
  fields :=
    [⟨"callback", .ofExpr .function, .none, none, none⟩,
      ⟨"priority", .named "u8", .none, none, none⟩]

def jobIndex : TypeIndex where
  shapes := [("Job", .record job)]

/-- A handler that takes a priority and a function. -/
def startJob : Handler where
  name := "start"
  markers := [⟨"post_mapping", [(Marker.positional, .text "/jobs")]⟩]
  doc := .none
  params := [⟨some "priority", .named "u8", []⟩, ⟨some "callback", .ofExpr .function, []⟩]
  returns := none

/-- Functions are left out of a job and of a handler. -/
theorem callback_omitted :
    (chain.resolve jobIndex (.ofExpr .function)).value.isAvailable = false ∧
    (addFields (chain.resolveAt jobIndex (maxNesting - 1) ["Job"]) job (.named "Job")
        (.emptyObject "Job") job.fields).value =
      (addFields (chain.resolveAt jobIndex (maxNesting - 1) ["Job"]) job (.named "Job")
        (.emptyObject "Job") job.fields.tail).value ∧
    (endpoints ⟨chain, jobIndex⟩ [] startJob (.new "start")).value =
      (endpoints ⟨chain, jobIndex⟩ []
        (startJob.withParams [⟨some "priority", .named "u8", []⟩]) (.new "start")).value := by
  obtain ⟨top, omitted⟩ := nameless_omitted chain (.inr rfl) jobIndex .function rfl
  have undeclared : jobIndex.find? "Unknown" = none := by decide
  obtain ⟨-, fields, params, -⟩ := omitted undeclared
  refine ⟨top.mpr (.inl undeclared), ?_, ?_⟩
  · exact fields (maxNesting - 2) ["Job"] job (.named "Job") [] _ job.fields.tail rfl
      List.not_mem_nil
  · exact params startJob [⟨some "priority", .named "u8", []⟩] _ [] [] (.new "start") rfl rfl rfl
      fun isHeader => absurd isHeader (by decide)

/-- The index of a file that declares why something is unknown. -/
def reasonIndex? : Option TypeIndex :=
  (Source.Item.parseFile? "pub struct Unknown \x7b reason: String \x7d").map fun items =>
    .ofFiles [items]

/-- There, a pair has a description. -/
theorem pair_described :
    ((Source.TypeExpr.parse? "(u32, u32)").map fun e => e.isNameless) = some true ∧
    (reasonIndex?.bind fun index => (Source.TypeExpr.parse? "(u32, u32)").map fun e =>
      (Chain.standard.resolve index (.ofExpr e)).value.isAvailable) = some true := by
  decide +kernel

end Spring
end RouteBook
