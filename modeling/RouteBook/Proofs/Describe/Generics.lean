import RouteBook.Proofs.Declared.Substitution
import RouteBook.Proofs.Describe.Context
import RouteBook.Proofs.Describe.Records
/-! # Arguments of declared types

What becomes of the arguments of a declared type.  A structure is described as the structure without
parameters in which the arguments stand for them (`Declared.applied`).  A synonym drops its arguments:
it is described as its target, and so as the instance of the target if no parameter occurs there
(`Chain.arguments_reach_declaration`).

The target is described one level further down and while the synonym itself is being described.  This
makes no difference if the run does not come to the end of the levels and does not meet the synonym
again: a run depends on the stack through the texts that it meets (`Chain.describe_eq_of_stack`).
-/
namespace RouteBook

namespace Declared

/-- A structure with arguments put in for its parameters. -/
def applied (r : RecordShape) (t : TypeTerm) : RecordShape where
  name := r.name
  generics := []
  fields := r.fields.map fun f => { f with type := f.type.substitute (bindings r t) }

/-- **The arguments are put in for the parameters first**, or field by field. -/
theorem addFields_applied (inner : TypeTerm → Logged Schema) (r : RecordShape) (t : TypeTerm)
    (object : Schema) (fields : List FieldShape) :
    addFields inner r t object fields =
      addFields inner (applied r t) t object
        (fields.map fun f => { f with type := f.type.substitute (bindings r t) }) := by
  induction fields generalizing object with
  | nil => rfl
  | cons f fields ih =>
    have unbound : bindings (applied r t) t = [] := rfl
    have step : addField inner (applied r t) t object
        { f with type := f.type.substitute (bindings r t) } = addField inner r t object f := by
      simp only [addField, unbound, TypeTerm.substitute_nil]
      rfl
    rw [List.map_cons, addFields, addFields, step]
    exact Logged.bind_congr_value _ (ih _)

end Declared

namespace Chain
open Declared

variable {chain : Chain} {index : TypeIndex}

/-- **A run depends on the stack through the texts that it meets.**  With a stack that agrees on them
and with more levels, the description is the same if the run does not come to the end of the levels. -/
theorem describe_eq_of_stack (direct : chain.IsDirect) {levels levels' : Nat}
    {expanding expanding' : List String} {t : TypeTerm}
    (uncut : ∀ d, chain.Reaches index ⟨levels, expanding, t⟩ d → d.levels ≠ 0)
    (enough : levels ≤ levels')
    (agree : ∀ d, chain.Reaches index ⟨levels, expanding, t⟩ d → chain.ChecksStack index d →
      (d.type.text ∈ expanding' ↔ d.type.text ∈ expanding)) :
    chain.describe index ⟨levels', expanding', t⟩ = chain.describe index ⟨levels, expanding, t⟩ := by
  induction levels generalizing levels' expanding expanding' t with
  | zero => exact absurd rfl (uncut _ .refl)
  | succ levels ih =>
    obtain ⟨more, rfl⟩ : ∃ more, levels' = more + 1 := ⟨levels' - 1, by omega⟩
    have enough : levels ≤ more := Nat.le_of_succ_le_succ enough
    -- below, the text of `t` is on both stacks or on neither
    have pushed : ∀ {u : TypeTerm},
        chain.Leads index ⟨levels + 1, expanding, t⟩ ⟨levels, t.text :: expanding, u⟩ →
        chain.describe index ⟨more, t.text :: expanding', u⟩ =
          chain.describe index ⟨levels, t.text :: expanding, u⟩ := by
      intro u step
      refine ih (fun d reaches => uncut d (.head step reaches)) enough fun d reaches checks => ?_
      rw [List.mem_cons, List.mem_cons, agree d (.head step reaches) checks]
    refine Resolver.first_congr ?_ ?_
    · intro before r after turn _ unknown
      refine (direct.of_mem (Resolver.mem_of_turn turn)).congr fun u _ asks => ?_
      have step : chain.Leads index ⟨levels + 1, expanding, t⟩ ⟨levels, expanding, u⟩ :=
        .question turn unknown asks
      exact ih (fun d reaches => uncut d (.head step reaches)) enough fun d reaches checks =>
        agree d (.head step reaches) checks
    · intro _ counts
      refine Declared.resolve_congr rfl ?_ ?_
      · intro r declared
        have same := agree ⟨levels + 1, expanding, t⟩ .refl (.record counts declared)
        exact ⟨same, fun _ new f hf kept => pushed (.field counts declared new hf kept)⟩
      · intro target declared
        have same := agree ⟨levels + 1, expanding, t⟩ .refl (.synonym counts declared)
        exact ⟨same, fun _ new => pushed (.target counts declared new)⟩

/-- **A synonym is described as its target**, as it is written, unless its run comes to the end of the
levels or meets the synonym itself again. -/
theorem value_of_synonym (direct : chain.IsDirect) {levels : Nat} {expanding : List String}
    {t target : TypeTerm} (counts : chain.DeclarationCounts index levels expanding t)
    (declared : index.find? t.name = some (.synonym target)) (new : t.text ∉ expanding)
    (uncut : ∀ u,
      Warning.nestedTooDeep u ∉ (chain.resolveAt index (levels + 1) expanding t).warnings)
    (unmet : ∀ d, chain.Reaches index ⟨levels, t.text :: expanding, target⟩ d →
      chain.ChecksStack index d → d.type.text ≠ t.text) {levels' : Nat} (enough : levels ≤ levels') :
    (chain.resolveAt index (levels + 1) expanding t).value =
      (chain.resolveAt index levels' expanding target).value := by
  have step : chain.Leads index ⟨levels + 1, expanding, t⟩ ⟨levels, t.text :: expanding, target⟩ :=
    .target counts declared new
  have silent : ∀ u,
      Warning.nestedTooDeep u ∉ (chain.describe index ⟨levels + 1, expanding, t⟩).warnings := uncut
  -- the stack of the target holds the text of `t` in addition, which its run does not meet
  have described : chain.describe index ⟨levels', expanding, target⟩ =
      chain.describe index ⟨levels, t.text :: expanding, target⟩ := by
    refine describe_eq_of_stack direct (fun d reaches => ?_) enough fun d reaches checks => ?_
    · exact Reaches.levels_ne_zero direct silent (.head step reaches)
    · rw [List.mem_cons, or_iff_right (unmet d reaches checks)]
  rw [value_of_counts counts, Declared.resolve]
  simp only [declared, List.contains_eq_mem, new, decide_false, Bool.false_eq_true, if_false]
  exact congrArg Logged.value described.symm

/-- **The arguments of a declared type.**  Let a type be described by its declaration, and not be the
marker for one that is being described already.

If it is a structure, then the arguments are put in for the parameters in the types of all its fields,
and the description is that of the structure which has these fields and no parameters.

If it is a synonym in whose target no parameter occurs, then the description is that of the target with
the arguments put in for the parameters, with any levels that are enough: unless its run comes to the
end of the levels, or meets the type itself again. -/
theorem arguments_reach_declaration (chain : Chain) (direct : chain.IsDirect) (index : TypeIndex)
    (levels : Nat) (expanding : List String) (name : String) (args : List TypeTerm)
    (counts : chain.DeclarationCounts index levels expanding (.applied name args))
    (new : (TypeTerm.applied name args).text ∉ expanding) :
    let t := TypeTerm.applied name args
    (∀ r, index.find? name = some (.record r) →
      (∀ f ∈ r.fields,
        TypeTerm.IsInstance r.generics args f.type (f.type.substitute (bindings r t))) ∧
      (chain.resolveAt index (levels + 1) expanding t).value =
        (addFields (chain.resolveAt index levels (t.text :: expanding)) (applied r t) t
          (.emptyObject t.text) (applied r t).fields).value) ∧
    (∀ target params, index.find? name = some (.synonym target) →
      (∀ p ∈ params, ¬ TypeTerm.HasLeaf p target) →
      (∀ u, Warning.nestedTooDeep u ∉ (chain.resolveAt index (levels + 1) expanding t).warnings) →
      (∀ d, chain.Reaches index ⟨levels, t.text :: expanding, target⟩ d →
        chain.ChecksStack index d → d.type.text ≠ t.text) →
      let u := target.substitute (params.zip args).reverse
      TypeTerm.IsInstance params args target u ∧
      ∀ levels', levels ≤ levels' → (chain.resolveAt index (levels + 1) expanding t).value =
        (chain.resolveAt index levels' expanding u).value) := by
  intro t
  constructor
  · intro r declared
    refine ⟨fun f _ => f.type.isInstance_substitute, ?_⟩
    have named : index.find? (TypeTerm.applied name args).name = some (.record r) := declared
    rw [value_of_counts counts, Declared.resolve]
    simp only [named, List.contains_eq_mem, new, decide_false, Bool.false_eq_true, if_false]
    exact congrArg Logged.value (addFields_applied _ r t _ r.fields)
  · intro target params declared apart uncut unmet u
    have same : u = target := TypeTerm.substitute_eq_self_of_apart apart
    refine ⟨target.isInstance_substitute, fun levels' enough => ?_⟩
    rw [same]
    exact value_of_synonym direct counts declared new uncut unmet enough

/-- Pages of anything. -/
def paging : RecordShape where
  name := "Page"
  generics := ["T"]
  fields :=
    [⟨"items", .applied "Vec" [.named "T"], .none, none, none⟩,
      ⟨"total", .named "u64", .none, none, none⟩]

/-- Pages, and handles, which are numbers whatever they are for. -/
def pagingIndex : TypeIndex where
  shapes := [("Page", .record paging), ("Handle", .synonym (.named "u64"))]

/-- A run on numbers meets nothing else. -/
theorem number_of_reaches {levels : Nat} {expanding : List String} {c : Call}
    (reaches : standard.Reaches pagingIndex ⟨levels, expanding, .named "u64"⟩ c) :
    c.type = .named "u64" := by
  have undeclared : pagingIndex.find? "u64" = none := by decide
  induction reaches with
  | refl => rfl
  | tail _ step number =>
    have plain : TypeTerm.first? (.named "u64") = none := rfl
    rcases step.declared (IsBuiltIn.isDirect (.inl rfl)) (by rw [number]; exact plain)
      with ⟨r, declared, -⟩ | declared
    · rw [number] at declared
      cases undeclared.symm.trans declared
    · rw [number] at declared
      cases undeclared.symm.trans declared

/-- The argument of a page reaches its items.  A handle for users is a number. -/
theorem arguments_of_page_and_handle :
    (applied paging (.applied "Page" [.named "bool"])).fields.map FieldShape.type =
      [.applied "Vec" [.named "bool"], .named "u64"] ∧
    (standard.resolve pagingIndex (.applied "Page" [.named "bool"])).value =
      (addFields (standard.resolveAt pagingIndex (maxNesting - 1) ["Page<bool>"])
        (applied paging (.applied "Page" [.named "bool"])) (.applied "Page" [.named "bool"])
        (.emptyObject "Page<bool>") (applied paging (.applied "Page" [.named "bool"])).fields).value ∧
    (standard.resolve pagingIndex (.applied "Handle" [.named "User"])).value =
      (standard.resolve pagingIndex (.named "u64")).value := by
  have direct : standard.IsDirect := IsBuiltIn.isDirect (.inl rfl)
  have pageCounts : standard.DeclarationCounts pagingIndex (maxNesting - 1) []
      (.applied "Page" [.named "bool"]) := by
    unfold DeclarationCounts Resolver.AllUnknown
    decide +kernel
  have handleCounts : standard.DeclarationCounts pagingIndex (maxNesting - 1) []
      (.applied "Handle" [.named "User"]) := by
    unfold DeclarationCounts Resolver.AllUnknown
    decide +kernel
  have page := arguments_reach_declaration standard direct pagingIndex (maxNesting - 1) [] "Page"
    [.named "bool"] pageCounts List.not_mem_nil
  have handle := arguments_reach_declaration standard direct pagingIndex (maxNesting - 1) [] "Handle"
    [.named "User"] handleCounts List.not_mem_nil
  have silent : (standard.resolve pagingIndex (.applied "Handle" [.named "User"])).warnings = [] := by
    decide +kernel
  have apart : ∀ p ∈ ["T"], ¬ TypeTerm.HasLeaf p (.named "u64") := by
    intro p hp h
    rw [List.mem_singleton.mp hp] at h
    exact absurd h.eq_of_named (by decide)
  refine ⟨by decide, (page.1 paging rfl).2, ?_⟩
  refine (handle.2 (.named "u64") ["T"] rfl apart (fun u => ?_) fun d reaches _ => ?_).2
    maxNesting (Nat.sub_le _ _)
  · rw [show (standard.resolveAt pagingIndex (maxNesting - 1 + 1) []
      (.applied "Handle" [.named "User"])).warnings = [] from silent]
    exact List.not_mem_nil
  · rw [number_of_reaches reaches]
    decide +kernel

/-- A file with batches, which are lists, and users. -/
def batchFile : String :=
  "pub struct Batch<T>(pub Vec<T>);\npub struct User \x7b name: String \x7d"

def batchIndex? : Option TypeIndex :=
  (Source.Item.parseFile? batchFile).map fun items => .ofFiles [items]

/-- A list of users is described, but not a batch of users, though nothing is nested too deep. -/
theorem batch_loses_argument :
    (batchIndex?.map fun index =>
      (standard.resolve index (.applied "Batch" [.named "User"])).value.isAvailable) = some false ∧
    (batchIndex?.map fun index =>
      (standard.resolve index (.applied "Vec" [.named "User"])).value.isAvailable) = some true ∧
    (batchIndex?.map fun index =>
      (standard.resolve index (.applied "Batch" [.named "User"])).warnings.isEmpty) =
      some true := by
  decide +kernel

end Chain
end RouteBook
