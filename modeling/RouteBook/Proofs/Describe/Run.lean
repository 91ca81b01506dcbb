import Mathlib.Logic.Relation
import RouteBook.Proofs.Describe.Answers
/-! # Runs of a chain

A description is the outcome of a run: describing a type leads to describing its parts, one level
further down.  This module makes the calls of a run visible.

What a resolver asks is seen from outside: it asks about `u` if another answer to `u` could be seen
in what it gives (`Resolver.Asks`).  The resolvers of the library and of the framework are *direct*
(`Resolver.IsDirect`): they ask at most about the first argument of a type and hand the warnings of
that answer on.  For them the notion is exact: direct resolvers give the same for scopes that agree
on what is asked (`Resolver.IsDirect.congr`), and the warnings of an answer that was asked for are
theirs (`Resolver.IsDirect.warnings_eq`).

The calls of a run are related by `Chain.Leads`, and `Chain.ChecksStack` holds of a call at which
the texts of the types being described are looked at.
-/
namespace RouteBook

/-! ### What a resolver asks -/

namespace Resolver

/-- The resolver whose turn comes is among those that are asked. -/
theorem mem_of_turn {rs before after : List Resolver} {r : Resolver}
    (turn : rs = before ++ r :: after) : r ∈ rs := by
  rw [turn]
  exact List.mem_append_right _ List.mem_cons_self

/-- A resolver asks about `u` when it describes `t`: another answer to `u` would show. -/
def Asks (r : Resolver) (scope : Scope) (t u : TypeTerm) : Prop :=
  ∃ answer : TypeTerm → Logged Schema, (∀ v, v ≠ u → answer v = scope.resolve v) ∧
    r ⟨scope.index, answer⟩ t ≠ r scope t

/-- A resolver that depends on the answer about the first argument at most, hands the warnings of
that answer on, and has an answer itself iff that one is available. -/
def IsDirect (r : Resolver) : Prop :=
  ∀ index t,
    (∃ x, ∀ answer, r ⟨index, answer⟩ t = x) ∨
    ∃ u, t.first? = some u ∧ ∃ f : Schema → Schema,
      (∀ s, (f s).isAvailable = s.isAvailable) ∧
      ∀ answer, r ⟨index, answer⟩ t = ⟨f (answer u).value, (answer u).warnings⟩

/-- The question of a direct resolver is asked: a further warning would show. -/
theorem asks_of_eq {r : Resolver} {index : TypeIndex} {t u : TypeTerm} {f : Schema → Schema}
    (h : ∀ answer, r ⟨index, answer⟩ t = ⟨f (answer u).value, (answer u).warnings⟩)
    (answer : TypeTerm → Logged Schema) : r.Asks ⟨index, answer⟩ t u := by
  classical
  let louder : Logged Schema :=
    ⟨(answer u).value, .nestedTooDeep u :: (answer u).warnings⟩
  refine ⟨fun v => if v = u then louder else answer v, fun v hv => if_neg hv, ?_⟩
  intro he
  have hw := congrArg (fun x => x.warnings.length) he
  simp [h, louder] at hw

/-- Direct resolvers give the same for scopes that agree on what is asked. -/
theorem IsDirect.congr {r : Resolver} (direct : r.IsDirect) {index : TypeIndex} {t : TypeTerm}
    {answer₁ answer₂ : TypeTerm → Logged Schema}
    (agree : ∀ u, r.Asks ⟨index, answer₁⟩ t u → r.Asks ⟨index, answer₂⟩ t u →
      answer₁ u = answer₂ u) : r ⟨index, answer₁⟩ t = r ⟨index, answer₂⟩ t := by
  rcases direct index t with ⟨x, hx⟩ | ⟨u, -, f, -, hf⟩
  · rw [hx, hx]
  · rw [hf, hf, agree u (asks_of_eq hf answer₁) (asks_of_eq hf answer₂)]

/-- What a direct resolver asks about is the first argument, and it builds on the answer. -/
theorem IsDirect.eq_of_asks {r : Resolver} (direct : r.IsDirect) {scope : Scope}
    {t u : TypeTerm} (asks : r.Asks scope t u) :
    t.first? = some u ∧ ∃ f : Schema → Schema,
      r scope t = ⟨f (scope.resolve u).value, (scope.resolve u).warnings⟩ := by
  obtain ⟨answer, same, differs⟩ := asks
  rcases direct scope.index t with ⟨x, hx⟩ | ⟨v, hv, f, -, hf⟩
  · exact absurd ((hx answer).trans (hx scope.resolve).symm) differs
  · by_cases huv : v = u
    · subst huv
      exact ⟨hv, f, hf scope.resolve⟩
    · -- a resolver whose only question is `v` does not see another answer to `u`
      refine absurd ?_ differs
      rw [hf answer, same v huv]
      exact (hf scope.resolve).symm

theorem IsDirect.first?_eq_of_asks {r : Resolver} (direct : r.IsDirect) {scope : Scope}
    {t u : TypeTerm} (asks : r.Asks scope t u) : t.first? = some u :=
  (direct.eq_of_asks asks).1

/-- The warnings of a direct resolver are those of the answer that it asks for. -/
theorem IsDirect.warnings_eq {r : Resolver} (direct : r.IsDirect) {scope : Scope}
    {t u : TypeTerm} (asks : r.Asks scope t u) :
    (r scope t).warnings = (scope.resolve u).warnings := by
  obtain ⟨-, f, hf⟩ := direct.eq_of_asks asks
  rw [hf]

/-- A resolver that asks nothing at all is direct. -/
theorem isDirect_of_eq {r : Resolver} (h : ∀ index answer₁ answer₂ t,
    r ⟨index, answer₁⟩ t = r ⟨index, answer₂⟩ t) : r.IsDirect :=
  fun index t => .inl ⟨r ⟨index, unknown⟩ t, fun answer => h index answer unknown t⟩

/-- Building on an answer if it is available. -/
theorem bind_ite_isAvailable (x : Logged Schema) (f : Schema → Schema) (t : TypeTerm) :
    (do
      let s ← x
      if s.isAvailable then return f s else unknown t) =
      ⟨if x.value.isAvailable then f x.value else .unavailable t.text, x.warnings⟩ := by
  cases h : x.value.isAvailable with
  | true => rw [Logged.bind_of_silent x (by simp [h])]; simp [h]
  | false => rw [Logged.bind_of_silent x (by simp [h, unknown])]; simp [h]

/-- What builds on available answers only is available with them. -/
theorem isAvailable_ite {f : Schema → Schema} (hf : ∀ s, (f s).isAvailable = true) (t : TypeTerm)
    (s : Schema) :
    (if s.isAvailable then f s else .unavailable t.text).isAvailable = s.isAvailable := by
  cases h : s.isAvailable with
  | true => exact hf s
  | false => rfl

end Resolver

namespace Standard
open Resolver

theorem isDirect_option : IsDirect option := by
  intro index t
  cases hu : t.first? with
  | none => exact .inl ⟨unknown t, fun answer => by simp only [option, hu]⟩
  | some u =>
    cases hn : isOneOf t ["Option"] with
    | false => exact .inl ⟨unknown t, fun answer => by simp [option, hu, hn]⟩
    | true =>
      refine .inr ⟨u, rfl, (·.withRequired false), fun s => s.isAvailable_withRequired false,
        fun answer => ?_⟩
      simp only [option, hu, hn, if_true]
      exact Logged.bind_of_silent (answer u) rfl

theorem isDirect_collection : IsDirect collection := by
  intro index t
  cases hu : t.first? with
  | none => exact .inl ⟨unknown t, fun answer => by simp only [collection, hu]⟩
  | some u =>
    cases hn : t.isArray || collections.contains t.name with
    | false => exact .inl ⟨unknown t, fun answer => by simp only [collection, hu, hn]; rfl⟩
    | true =>
      refine .inr ⟨u, rfl, fun s => if s.isAvailable then .ofElement s else .unavailable t.text,
        isAvailable_ite (fun _ => rfl) t, fun answer => ?_⟩
      simp only [collection, hu, hn, if_true]
      exact bind_ite_isAvailable (answer u) .ofElement t

theorem isDirect_wrapper : IsDirect wrapper := by
  intro index t
  cases hu : t.first? with
  | none => exact .inl ⟨unknown t, fun answer => by simp only [wrapper, hu]⟩
  | some u =>
    cases hn : isOneOf t wrappers with
    | false => exact .inl ⟨unknown t, fun answer => by simp [wrapper, hu, hn]⟩
    | true =>
      refine .inr ⟨u, rfl, fun s => s, fun _ => rfl, fun answer => ?_⟩
      simp only [wrapper, hu, hn, if_true]

theorem isDirect_of_mem {r : Resolver} (hr : r ∈ resolvers) : r.IsDirect := by
  simp only [resolvers, List.mem_cons, List.not_mem_nil, or_false] at hr
  rcases hr with rfl | rfl | rfl | rfl | rfl | rfl
  · exact isDirect_of_eq fun _ _ _ _ => rfl
  · exact isDirect_of_eq fun _ _ _ _ => rfl
  · exact isDirect_option
  · exact isDirect_collection
  · exact isDirect_of_eq fun _ _ _ _ => rfl
  · exact isDirect_wrapper

end Standard

namespace Spring
open Resolver

theorem isDirect_component : IsDirect component := by
  intro index t
  by_cases harray : t.isArray = true
  · exact .inl ⟨unknown t, fun _ => if_pos harray⟩
  by_cases hheld : transparent.contains t.name = true
  · cases hu : t.first? with
    | none =>
      refine .inl ⟨unknown t, fun _ => ?_⟩
      rw [component, if_neg harray, if_pos hheld, hu]
    | some u =>
      refine .inr ⟨u, rfl, fun s => s, fun _ => rfl, fun _ => ?_⟩
      rw [component, if_neg harray, if_pos hheld, hu]
  by_cases hfile : fileTypes.contains t.name = true
  · refine .inl ⟨pure ((Schema.ofText "File" "").addRemark "multipart file"), fun _ => ?_⟩
    rw [component, if_neg harray, if_neg hheld, if_pos hfile]
  by_cases hdeclared : (index.find? t.name).isSome = true
  · refine .inl ⟨unknown t, fun _ => ?_⟩
    rw [component, if_neg harray, if_neg hheld, if_neg hfile, if_pos hdeclared]
  by_cases hpage : t.name = "Page"
  · cases hu : t.first? with
    | none =>
      refine .inl ⟨unknown t, fun _ => ?_⟩
      rw [component, if_neg harray, if_neg hheld, if_neg hfile, if_neg hdeclared, if_pos hpage, hu]
    | some u =>
      refine .inr ⟨u, rfl, fun s => if s.isAvailable then page t s else .unavailable t.text,
        isAvailable_ite (fun _ => rfl) t, fun answer => ?_⟩
      rw [component, if_neg harray, if_neg hheld, if_neg hfile, if_neg hdeclared, if_pos hpage, hu]
      exact bind_ite_isAvailable (answer u) (page t) t
  · refine .inl ⟨if t.name = "Pageable" && t.args.isEmpty then pure pageable else unknown t,
      fun _ => ?_⟩
    rw [component, if_neg harray, if_neg hheld, if_neg hfile, if_neg hdeclared, if_neg hpage]

end Spring

/-! ### Calls -/

namespace Chain

/-- A call of a chain. -/
structure Call where
  /-- How many levels are left. -/
  levels : Nat
  /-- The texts of the types that are being described, the innermost first. -/
  expanding : List String
  /-- The type that is asked for. -/
  type : TypeTerm

variable (chain : Chain) (index : TypeIndex)

/-- What a call gives. -/
def describe (c : Call) : Logged Schema := chain.resolveAt index c.levels c.expanding c.type

/-- The resolvers that are asked before the declaration counts. -/
def resolvers : List Resolver := chain.plugins ++ Standard.resolvers

/-- With so many levels left, no resolver has an answer to a type: its declaration counts. -/
def DeclarationCounts (levels : Nat) (expanding : List String) (t : TypeTerm) : Prop :=
  Resolver.AllUnknown chain.resolvers (chain.scopeAt index levels expanding) t

/-- **The calls that a call leads to.**  A resolver whose turn comes asks about a part of the type;
or the declaration counts, the type is not being described yet, and the fields that are not skipped
or the target of the synonym are described while the type itself is. -/
inductive Leads : Call → Call → Prop
  | question {levels : Nat} {expanding : List String} {t u : TypeTerm}
      {before after : List Resolver} {r : Resolver}
      (turn : chain.resolvers = before ++ r :: after)
      (unknown : Resolver.AllUnknown before (chain.scopeAt index levels expanding) t)
      (asks : r.Asks (chain.scopeAt index levels expanding) t u) :
      Leads ⟨levels + 1, expanding, t⟩ ⟨levels, expanding, u⟩
  | field {levels : Nat} {expanding : List String} {t : TypeTerm} {r : RecordShape}
      {f : FieldShape} (counts : chain.DeclarationCounts index levels expanding t)
      (declared : index.find? t.name = some (.record r)) (new : t.text ∉ expanding)
      (hf : f ∈ r.fields) (kept : f.rules.skip = false) :
      Leads ⟨levels + 1, expanding, t⟩
        ⟨levels, t.text :: expanding, f.type.substitute (Declared.bindings r t)⟩
  | target {levels : Nat} {expanding : List String} {t target : TypeTerm}
      (counts : chain.DeclarationCounts index levels expanding t)
      (declared : index.find? t.name = some (.synonym target)) (new : t.text ∉ expanding) :
      Leads ⟨levels + 1, expanding, t⟩ ⟨levels, t.text :: expanding, target⟩

/-- The calls of the run that a call starts. -/
abbrev Reaches : Call → Call → Prop := Relation.ReflTransGen (chain.Leads index)

/-- A call at which the texts of the types being described are looked at: the declaration counts,
and it is a structure or a synonym. -/
inductive ChecksStack : Call → Prop
  | record {levels : Nat} {expanding : List String} {t : TypeTerm} {r : RecordShape}
      (counts : chain.DeclarationCounts index levels expanding t)
      (declared : index.find? t.name = some (.record r)) :
      ChecksStack ⟨levels + 1, expanding, t⟩
  | synonym {levels : Nat} {expanding : List String} {t target : TypeTerm}
      (counts : chain.DeclarationCounts index levels expanding t)
      (declared : index.find? t.name = some (.synonym target)) :
      ChecksStack ⟨levels + 1, expanding, t⟩

/-- A chain whose plugins are direct. -/
def IsDirect : Prop := ∀ r ∈ chain.plugins, r.IsDirect

variable {chain index}

theorem IsBuiltIn.isDirect (h : chain.IsBuiltIn) : chain.IsDirect := by
  intro r hr
  rw [h.eq_component hr]
  exact Spring.isDirect_component

theorem IsDirect.of_mem (h : chain.IsDirect) {r : Resolver} (hr : r ∈ chain.resolvers) :
    r.IsDirect := by
  rcases List.mem_append.mp hr with hr | hr
  · exact h r hr
  · exact Standard.isDirect_of_mem hr

/-- A step goes one level down. -/
theorem Leads.levels_eq {c d : Call} (h : chain.Leads index c d) : c.levels = d.levels + 1 := by
  cases h <;> rfl

/-- A step leaves the stack as it is, or puts the text of the type on it, which was not there. -/
theorem Leads.expanding_cases {c d : Call} (h : chain.Leads index c d) :
    d.expanding = c.expanding ∨
    c.type.text ∉ c.expanding ∧ d.expanding = c.type.text :: c.expanding := by
  cases h with
  | question => exact .inl rfl
  | field _ _ new _ _ => exact .inr ⟨new, rfl⟩
  | target _ _ new => exact .inr ⟨new, rfl⟩

/-- The stack is looked at for declared types only. -/
theorem ChecksStack.declared {c : Call} (h : chain.ChecksStack index c) :
    index.find? c.type.name ≠ none := by
  cases h with
  | record _ declared => rw [declared]; exact Option.some_ne_none _
  | synonym _ declared => rw [declared]; exact Option.some_ne_none _

/-- A type without arguments leads to the parts of its declaration only. -/
theorem Leads.declared {c d : Call} (direct : chain.IsDirect) (h : chain.Leads index c d)
    (hfirst : c.type.first? = none) :
    (∃ r, index.find? c.type.name = some (.record r) ∧
      ∃ f ∈ r.fields, d.type = f.type.substitute (Declared.bindings r c.type)) ∨
    index.find? c.type.name = some (.synonym d.type) := by
  cases h with
  | question turn _ asks =>
    have hr := direct.of_mem (Resolver.mem_of_turn turn)
    rw [hr.first?_eq_of_asks asks] at hfirst
    cases hfirst
  | @field _ _ _ r f _ declared _ hf _ => exact .inl ⟨r, declared, f, hf, rfl⟩
  | target _ declared _ => exact .inr declared

end Chain

/-! ### Warnings are handed on

Whatever a call of a run warns of is among the warnings of the run.  So a run without a certain
warning has no call with it. -/

namespace Resolver

/-- Resolvers without an answer add their warnings to those that are asked after them. -/
theorem warnings_subset_first_append {last : Resolver} {scope : Scope} {t : TypeTerm}
    {before : List Resolver} (unknown : AllUnknown before scope t) (rs : List Resolver) :
    (first last scope t rs).warnings ⊆ (first last scope t (before ++ rs)).warnings := by
  induction before with
  | nil => exact fun _ h => h
  | cons r before ih =>
    have hr := unknown r List.mem_cons_self
    have rest := ih fun q hq => unknown q (List.mem_cons_of_mem _ hq)
    intro w hw
    simp only [List.cons_append, first, Logged.warnings_bind, hr]
    exact List.mem_append_right _ (rest hw)

/-- So does the resolver whose turn comes. -/
theorem warnings_subset_first {last : Resolver} {scope : Scope} {t : TypeTerm}
    {before after : List Resolver} {r : Resolver} (unknown : AllUnknown before scope t) :
    (r scope t).warnings ⊆ (first last scope t (before ++ r :: after)).warnings := by
  intro w hw
  refine warnings_subset_first_append unknown (r :: after) ?_
  simp only [first, Logged.warnings_bind]
  exact List.mem_append_left _ hw

/-- And so does the last one, if no other has an answer. -/
theorem warnings_last_subset_first {last : Resolver} {scope : Scope} {t : TypeTerm}
    {rs : List Resolver} (unknown : AllUnknown rs scope t) :
    (last scope t).warnings ⊆ (first last scope t rs).warnings := by
  have h : (first last scope t []).warnings ⊆ (first last scope t (rs ++ [])).warnings :=
    warnings_subset_first_append unknown []
  rwa [List.append_nil] at h

end Resolver

namespace Declared

theorem warnings_subset_addField {inner : TypeTerm → Logged Schema} {r : RecordShape}
    {t : TypeTerm} (object : Schema) {f : FieldShape} (kept : f.rules.skip = false) :
    (inner (f.type.substitute (bindings r t))).warnings ⊆
      (addField inner r t object f).warnings := by
  intro w hw
  simp only [addField, kept, Bool.false_eq_true, if_false, Logged.warnings_bind]
  exact List.mem_append_left _ hw

theorem warnings_subset_addFields {inner : TypeTerm → Logged Schema} {r : RecordShape}
    {t : TypeTerm} (object : Schema) {fields : List FieldShape} {f : FieldShape}
    (hf : f ∈ fields) (kept : f.rules.skip = false) :
    (inner (f.type.substitute (bindings r t))).warnings ⊆
      (addFields inner r t object fields).warnings := by
  induction fields generalizing object with
  | nil => exact absurd hf List.not_mem_nil
  | cons g fields ih =>
    intro w hw
    simp only [addFields, Logged.warnings_bind]
    rcases List.mem_cons.mp hf with rfl | hf
    · exact List.mem_append_left _ (warnings_subset_addField object kept hw)
    · exact List.mem_append_right _ (ih _ hf hw)

end Declared

namespace Chain

variable {chain : Chain} {index : TypeIndex} {c d : Call}

theorem warnings_declared_subset {levels : Nat} {expanding : List String} {t : TypeTerm}
    (counts : chain.DeclarationCounts index levels expanding t) :
    (Declared.resolve index expanding (chain.resolveAt index levels (t.text :: expanding))
      t).warnings ⊆ (chain.resolveAt index (levels + 1) expanding t).warnings := by
  intro w hw
  show w ∈ (Resolver.first (fun _ t => Declared.resolve index expanding
    (chain.resolveAt index levels (t.text :: expanding)) t) _ t chain.resolvers).warnings
  exact Resolver.warnings_last_subset_first counts hw

theorem Leads.warnings_subset (direct : chain.IsDirect) (h : chain.Leads index c d) :
    (chain.describe index d).warnings ⊆ (chain.describe index c).warnings := by
  cases h with
  | @question levels expanding t u before after r turn unknown asks =>
    intro w hw
    have asked : w ∈ (r (chain.scopeAt index levels expanding) t).warnings := by
      rw [(direct.of_mem (Resolver.mem_of_turn turn)).warnings_eq asks]
      exact hw
    show w ∈ (Resolver.first _ _ t chain.resolvers).warnings
    rw [turn]
    exact Resolver.warnings_subset_first unknown asked
  | @field levels expanding t r f counts declared new hf kept =>
    intro w hw
    refine warnings_declared_subset counts ?_
    simp only [Declared.resolve, declared, List.contains_eq_mem, new, decide_false,
      Bool.false_eq_true, if_false]
    exact Declared.warnings_subset_addFields _ hf kept hw
  | @target levels expanding t target counts declared new =>
    intro w hw
    refine warnings_declared_subset counts ?_
    simp only [Declared.resolve, declared, List.contains_eq_mem, new, decide_false,
      Bool.false_eq_true, if_false]
    exact hw

/-- **A run warns of all that its calls warn of.** -/
theorem Reaches.warnings_subset (direct : chain.IsDirect) (h : chain.Reaches index c d) :
    (chain.describe index d).warnings ⊆ (chain.describe index c).warnings := by
  induction h with
  | refl => exact fun _ hw => hw
  | tail _ step ih => exact fun _ hw => ih (step.warnings_subset direct hw)

end Chain
end RouteBook
