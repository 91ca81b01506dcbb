import RouteBook.Proofs.Declared.Index
import RouteBook.Proofs.Describe.Context
/-! # Descriptions depend on the names that are looked up

A description depends on the declared types through the names that its run looks up, and on the
number of levels only if it comes to the end of them (`Chain.describe_congr`).

What a resolver looks up is seen from outside, as what it asks is: it looks up a name if another
declaration of that name could be seen in what it gives (`Resolver.LooksUp`).  The resolvers of the
library and of the framework are *local* (`Resolver.IsLocal`): the only name they can look up is
that of the type itself.  A call looks up what a resolver does whose turn comes, and the name of its
type if the declaration counts (`Chain.LooksUp`).

Later files only add declarations of names that are open (`TypeIndex.find?_ofFiles_append`).  So
they do not change the description of a type whose run does not look up such a name
(`Chain.resolve_ofFiles_append`).
-/
namespace RouteBook

/-! ### What a resolver looks up -/

namespace Resolver

variable {r : Resolver} {index : TypeIndex} {t : TypeTerm} {name : String}

/-- A resolver looks up `name` when it describes `t`: another declaration of that name, or none,
would show. -/
def LooksUp (r : Resolver) (index : TypeIndex) (t : TypeTerm) (name : String) : Prop :=
  ∃ other : TypeIndex, (∀ n, n ≠ name → other.find? n = index.find? n) ∧
    ∃ answer : TypeTerm → Logged Schema, r ⟨other, answer⟩ t ≠ r ⟨index, answer⟩ t

/-- A resolver that depends on the declaration of the name of a type at most. -/
def IsLocal (r : Resolver) : Prop :=
  ∀ (index₁ index₂ : TypeIndex) (answer : TypeTerm → Logged Schema) (t : TypeTerm),
    index₁.find? t.name = index₂.find? t.name → r ⟨index₁, answer⟩ t = r ⟨index₂, answer⟩ t

/-- A local resolver looks up the name of the type and no other. -/
theorem IsLocal.name_eq (h : r.IsLocal) (looks : r.LooksUp index t name) : name = t.name := by
  obtain ⟨other, same, answer, differs⟩ := looks
  by_cases hname : t.name = name
  · exact hname.symm
  · exact absurd (h other index answer t (same t.name hname)) differs

/-- A local resolver gives the same over two indices that agree on what it looks up. -/
theorem IsLocal.congr (h : r.IsLocal) {index' : TypeIndex}
    (agree : ∀ name, r.LooksUp index t name → index'.find? name = index.find? name)
    (answer : TypeTerm → Logged Schema) : r ⟨index', answer⟩ t = r ⟨index, answer⟩ t := by
  by_cases same : index'.find? t.name = index.find? t.name
  · exact h index' index answer t same
  · -- the two differ on a name that is not looked up, so changing that name alone does not show
    have unseen : ¬ r.LooksUp index t t.name := fun looks => same (agree t.name looks)
    obtain ⟨other, told, untouched⟩ := index.exists_redeclared t.name (index'.find? t.name)
    have unchanged : r ⟨other, answer⟩ t = r ⟨index, answer⟩ t :=
      Classical.byContradiction fun differs => unseen ⟨other, untouched, answer, differs⟩
    rw [← unchanged]
    exact h index' other answer t told.symm

/-- A resolver that does not look at the index is local. -/
theorem isLocal_of_eq (h : ∀ index₁ index₂ answer t,
    r ⟨index₁, answer⟩ t = r ⟨index₂, answer⟩ t) : r.IsLocal :=
  fun index₁ index₂ answer t _ => h index₁ index₂ answer t

end Resolver

namespace Standard
open Resolver

theorem isLocal_of_mem {r : Resolver} (hr : r ∈ resolvers) : r.IsLocal := by
  simp only [resolvers, List.mem_cons, List.not_mem_nil, or_false] at hr
  rcases hr with rfl | rfl | rfl | rfl | rfl | rfl
  · exact isLocal_of_eq fun _ _ _ _ => rfl
  · exact isLocal_of_eq fun _ _ _ _ => rfl
  · exact isLocal_of_eq fun _ _ _ _ => rfl
  · exact isLocal_of_eq fun _ _ _ _ => rfl
  · -- maps look whether their name is declared
    intro index₁ index₂ answer t same
    simp only [map, same]
  · exact isLocal_of_eq fun _ _ _ _ => rfl

end Standard

theorem Spring.isLocal_component : Resolver.IsLocal Spring.component := by
  intro index₁ index₂ answer t same
  simp only [component, same]

/-! ### What a run looks up -/

namespace Chain

variable {chain : Chain} {index index' : TypeIndex}

theorem IsBuiltIn.isLocal (h : chain.IsBuiltIn) {r : Resolver} (hr : r ∈ chain.resolvers) :
    r.IsLocal := by
  rcases List.mem_append.mp hr with hr | hr
  · rw [h.eq_component hr]
    exact Spring.isLocal_component
  · exact Standard.isLocal_of_mem hr

/-- **The names that a call looks up**: a resolver whose turn comes looks up a name; or the
declaration counts, and the name of the type is looked up. -/
inductive LooksUp (chain : Chain) (index : TypeIndex) : Call → String → Prop
  | resolver {levels : Nat} {expanding : List String} {t : TypeTerm} {name : String}
      {before after : List Resolver} {r : Resolver}
      (turn : chain.resolvers = before ++ r :: after)
      (unknown : Resolver.AllUnknown before (chain.scopeAt index levels expanding) t)
      (looks : r.LooksUp index t name) : LooksUp chain index ⟨levels + 1, expanding, t⟩ name
  | declaration {levels : Nat} {expanding : List String} {t : TypeTerm}
      (counts : chain.DeclarationCounts index levels expanding t) :
      LooksUp chain index ⟨levels + 1, expanding, t⟩ t.name

/-- A call of a chain of local resolvers looks up the name of its type and no other. -/
theorem LooksUp.name_eq (isLocal : ∀ r ∈ chain.resolvers, r.IsLocal) {c : Call} {name : String}
    (h : chain.LooksUp index c name) : name = c.type.name := by
  cases h with
  | resolver turn _ looks => exact (isLocal _ (Resolver.mem_of_turn turn)).name_eq looks
  | declaration _ => rfl

/-- **A description depends on the names that its run looks up.**  Over another index that agrees
with the first on them, and with more levels if the run does not come to the end of those it has,
the description is the same. -/
theorem describe_congr (direct : chain.IsDirect) (isLocal : ∀ r ∈ chain.resolvers, r.IsLocal)
    {levels levels' : Nat} {expanding : List String} {t : TypeTerm}
    (agree : ∀ d name, chain.Reaches index ⟨levels, expanding, t⟩ d →
      chain.LooksUp index d name → index'.find? name = index.find? name)
    (enough : levels' = levels ∨ levels ≤ levels' ∧
      ∀ d, chain.Reaches index ⟨levels, expanding, t⟩ d → d.levels ≠ 0) :
    chain.describe index' ⟨levels', expanding, t⟩ = chain.describe index ⟨levels, expanding, t⟩ := by
  induction levels generalizing levels' expanding t with
  | zero =>
    rcases enough with rfl | ⟨-, uncut⟩
    · rfl
    · exact absurd rfl (uncut _ .refl)
  | succ levels ih =>
    obtain ⟨more, rfl⟩ : ∃ more, levels' = more + 1 := by
      rcases enough with rfl | ⟨le, -⟩
      · exact ⟨levels, rfl⟩
      · exact ⟨levels' - 1, by omega⟩
    -- what both hypotheses say of the calls one step further
    have inner : ∀ {d : Call}, chain.Leads index ⟨levels + 1, expanding, t⟩ d →
        chain.describe index' ⟨more, d.expanding, d.type⟩ =
          chain.describe index ⟨levels, d.expanding, d.type⟩ := by
      intro d step
      have hlevels : levels = d.levels := Nat.succ.inj step.levels_eq
      subst hlevels
      refine ih (fun e name reaches => agree e name (.head step reaches)) ?_
      rcases enough with same | ⟨le, uncut⟩
      · exact .inl (Nat.succ.inj same)
      · exact .inr ⟨Nat.le_of_succ_le_succ le, fun e reaches => uncut e (.head step reaches)⟩
    refine Resolver.first_congr ?_ ?_
    · intro before r after turn _ unknown
      have looked := (isLocal r (Resolver.mem_of_turn turn)).congr
        (fun name looks => agree _ name .refl (.resolver turn unknown looks))
        (chain.resolveAt index' more expanding)
      refine looked.trans ?_
      refine (direct.of_mem (Resolver.mem_of_turn turn)).congr fun u _ asks => ?_
      exact inner (.question turn unknown asks)
    · intro _ counts
      refine Declared.resolve_congr (agree _ t.name .refl (.declaration counts)) ?_ ?_
      · exact fun r declared => ⟨Iff.rfl, fun _ new f hf kept =>
          inner (.field counts declared new hf kept)⟩
      · exact fun target declared => ⟨Iff.rfl, fun _ new => inner (.target counts declared new)⟩

/-- **Later files never change what earlier ones document.**  A name stands for what the earlier
files declare, and if they leave it open, for what the later ones declare.  So a type is described
as before unless its run looks up a name that the earlier files leave open and the later ones
declare. -/
theorem resolve_ofFiles_append (chain : Chain) (hchain : chain.IsBuiltIn)
    (fs gs : List (List Source.Item)) :
    (∀ name, (TypeIndex.ofFiles (fs ++ gs)).find? name =
      ((TypeIndex.ofFiles fs).find? name).or ((TypeIndex.ofFiles gs).find? name)) ∧
    ∀ t : TypeTerm,
      (∀ d name, chain.Reaches (TypeIndex.ofFiles fs) ⟨maxNesting, [], t⟩ d →
        chain.LooksUp (TypeIndex.ofFiles fs) d name →
        (TypeIndex.ofFiles fs).find? name = none → (TypeIndex.ofFiles gs).find? name = none) →
      chain.resolve (TypeIndex.ofFiles (fs ++ gs)) t = chain.resolve (TypeIndex.ofFiles fs) t := by
  have names := fun name => TypeIndex.find?_ofFiles_append name fs gs
  refine ⟨names, fun t unseen => ?_⟩
  refine describe_congr hchain.isDirect (fun r hr => hchain.isLocal hr) ?_ (.inl rfl)
  intro d name reaches looks
  rw [names]
  cases declared : (TypeIndex.ofFiles fs).find? name with
  | some shape => rfl
  | none => exact unseen d name reaches looks declared

/-- A file that declares the types of `orderIndex`. -/
def orderFile : List Source.Item :=
  let item : Source.Word := .plain ⟨'I', ['t', 'e', 'm'], rfl, rfl⟩
  let number : Source.Word := .plain ⟨'u', ['6', '4'], rfl, rfl⟩
  [.structDecl "Order" []
      (.named [⟨[], "item", .path false [.named item rfl .absent]⟩]) [],
    .structDecl "Item" []
      (.named [⟨[], "id", .path false [.named number rfl .absent]⟩]) []]

/-- A file that declares an item, too, and a page. -/
def pageFile : List Source.Item :=
  [.enumDecl "Item" [] [], .structDecl "Page" ["T"] .unit []]

/-- A second file with an item and a page does not change the items of the first. -/
theorem item_of_first_file :
    (∀ d name, Spring.chain.Reaches (TypeIndex.ofFiles [orderFile])
        ⟨maxNesting, [], .named "Item"⟩ d →
      Spring.chain.LooksUp (TypeIndex.ofFiles [orderFile]) d name →
      (TypeIndex.ofFiles [orderFile]).find? name = none →
      (TypeIndex.ofFiles [pageFile]).find? name = none) ∧
    Spring.chain.resolve (TypeIndex.ofFiles ([orderFile] ++ [pageFile])) (.named "Item") =
      Spring.chain.resolve (TypeIndex.ofFiles [orderFile]) (.named "Item") := by
  have builtIn : Spring.chain.IsBuiltIn := .inr rfl
  have index : TypeIndex.ofFiles [orderFile] = orderIndex := rfl
  have unseen : ∀ d name, Spring.chain.Reaches (TypeIndex.ofFiles [orderFile])
        ⟨maxNesting, [], .named "Item"⟩ d →
      Spring.chain.LooksUp (TypeIndex.ofFiles [orderFile]) d name →
      (TypeIndex.ofFiles [orderFile]).find? name = none →
      (TypeIndex.ofFiles [pageFile]).find? name = none := by
    rw [index]
    intro d name reaches looks left_open
    rw [looks.name_eq fun r hr => builtIn.isLocal hr] at left_open ⊢
    rcases item_of_reaches reaches with item | leaf
    · rw [item] at left_open
      cases left_open
    · rw [leaf]
      rfl
  exact ⟨unseen, (resolve_ofFiles_append Spring.chain builtIn [orderFile] [pageFile]).2 _ unseen⟩

end Chain
end RouteBook
