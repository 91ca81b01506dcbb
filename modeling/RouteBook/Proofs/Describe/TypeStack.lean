import RouteBook.Proofs.Declared.TypeTexts
import RouteBook.Proofs.Describe.Context
/-! # A stack of texts is a stack of types

While a declared type is being described, its text stands on a stack, and a type whose text is met again
becomes a marker.  Texts tell types apart (`TypeTerm.IsRead.text_inj`), so that the stack might as well
hold the types themselves: `Chain.resolveByType` does so, and gives the same for every type that is
built from source (`Chain.texts_tell_types`).

In a run on such a type every type is one that is read: the fields and targets of declarations are, what
is put in for parameters is, and the resolvers of the library and of the framework ask about arguments.
Plugins have to ask about such types only, too (`Resolver.AsksRead`).
-/
namespace RouteBook
open TypeTerm

/-! ### What plugins ask -/

/-- A resolver that asks only about types that are read, if it describes one. -/
def Resolver.AsksRead (r : Resolver) : Prop :=
  ∀ (index : TypeIndex) (answer₁ answer₂ : TypeTerm → Logged Schema) (t : TypeTerm), IsRead t →
    (∀ u, IsRead u → answer₁ u = answer₂ u) → r ⟨index, answer₁⟩ t = r ⟨index, answer₂⟩ t

/-- A resolver that asks about the first argument does. -/
theorem Resolver.IsDirect.asksRead {r : Resolver} (h : r.IsDirect) : r.AsksRead := by
  intro index answer₁ answer₂ t ht agree
  rcases h index t with ⟨x, hx⟩ | ⟨u, hu, f, -, hf⟩
  · rw [hx, hx]
  · rw [hf, hf, agree u (ht.args u (List.mem_of_mem_head? hu))]

/-! ### Types on the stack -/

namespace Declared

/-- Describes a type by its declaration; `met` says whether it is being described already. -/
def resolveUnless (index : TypeIndex) (met : Bool) (resolve : TypeTerm → Logged Schema)
    (t : TypeTerm) : Logged Schema :=
  match index.find? t.name with
  | none => Resolver.unknown t
  | some (.choice name variants) => return choice name variants
  | some (.record r) =>
    if met then return .recursive t.text
    else addFields resolve r t (.emptyObject t.text) r.fields
  | some (.synonym target) => if met then return .recursive t.text else resolve target

theorem resolve_eq_resolveUnless (index : TypeIndex) (expanding : List String)
    (inner : TypeTerm → Logged Schema) (t : TypeTerm) :
    resolve index expanding inner t = resolveUnless index (expanding.contains t.text) inner t :=
  rfl

variable {files : List (List Source.Item)}

/-- What is bound to the parameters of a structure is read if the type is. -/
theorem isRead_bindings (r : RecordShape) {t : TypeTerm} (h : IsRead t) :
    ∀ b ∈ bindings r t, IsRead b.2 := by
  intro b hb
  exact h.args b.2 (List.of_mem_zip (List.mem_reverse.mp hb)).2

/-- The declaration of a type that is read gives the same if types that are read are described the same
way. -/
theorem resolveUnless_congr {t : TypeTerm} (ht : IsRead t) (met : Bool)
    {inner₁ inner₂ : TypeTerm → Logged Schema} (agree : ∀ u, IsRead u → inner₁ u = inner₂ u) :
    resolveUnless (.ofFiles files) met inner₁ t = resolveUnless (.ofFiles files) met inner₂ t := by
  unfold resolveUnless
  cases declared : (TypeIndex.ofFiles files).find? t.name with
  | none => rfl
  | some shape =>
    have read := isRead_of_find? declared
    cases shape with
    | choice name variants => rfl
    | record r =>
      have fields : addFields inner₁ r t (.emptyObject t.text) r.fields =
          addFields inner₂ r t (.emptyObject t.text) r.fields := by
        refine addFields_congr _ fun f hf _ => agree _ ?_
        exact (read f.type (List.mem_map_of_mem hf)).substitute (isRead_bindings r ht)
      dsimp only
      rw [fields]
    | synonym target =>
      dsimp only
      rw [agree target (read target List.mem_cons_self)]

end Declared

namespace Chain

/-- Describes a type as `resolveAt` does, but keeps the types that are being described, and compares
types. -/
def resolveAmong (chain : Chain) (index : TypeIndex) :
    Nat → List TypeTerm → TypeTerm → Logged Schema
  | 0, _, t => do
    Logged.warn (.nestedTooDeep t)
    return .recursive t.text
  | levels + 1, expanding, t =>
    let declared : Resolver := fun _ t =>
      Declared.resolveUnless index (expanding.contains t)
        (resolveAmong chain index levels (t :: expanding)) t
    Resolver.first declared ⟨index, resolveAmong chain index levels expanding⟩ t
      (chain.plugins ++ Standard.resolvers)

/-- Describes a type with a stack of types. -/
def resolveByType (chain : Chain) (index : TypeIndex) (t : TypeTerm) : Logged Schema :=
  resolveAmong chain index maxNesting [] t

variable {chain : Chain} {files : List (List Source.Item)}

/-- A text is on the stack iff its type is. -/
theorem contains_map_text {types : List TypeTerm} {t : TypeTerm} (htypes : ∀ u ∈ types, IsRead u)
    (ht : IsRead t) : (types.map text).contains t.text = types.contains t := by
  rw [Bool.eq_iff_iff, List.contains_iff_mem, List.contains_iff_mem, List.mem_map]
  constructor
  · rintro ⟨u, hu, same⟩
    rwa [← ((htypes u hu).text_inj ht).mp same]
  · exact fun h => ⟨t, h, rfl⟩

/-- **A stack of texts is as good as a stack of types**, at every level of a run. -/
theorem resolveAt_map_text (asks : ∀ r ∈ chain.plugins, r.AsksRead) {levels : Nat}
    {types : List TypeTerm} {t : TypeTerm} (htypes : ∀ u ∈ types, IsRead u) (ht : IsRead t) :
    chain.resolveAt (.ofFiles files) levels (types.map text) t =
      chain.resolveAmong (.ofFiles files) levels types t := by
  induction levels generalizing types t with
  | zero => rfl
  | succ levels ih =>
    refine Resolver.first_congr ?_ ?_
    · intro before r after turn _ _
      have asksRead : r.AsksRead := by
        rcases List.mem_append.mp (Resolver.mem_of_turn turn) with hr | hr
        · exact asks r hr
        · exact (Standard.isDirect_of_mem hr).asksRead
      exact asksRead _ _ _ t ht fun u hu => ih htypes hu
    · intro _ _
      -- the type is on one stack iff its text is on the other, and then it is on both of them below
      rw [Declared.resolve_eq_resolveUnless, contains_map_text htypes ht]
      have below : ∀ u ∈ t :: types, IsRead u := List.forall_mem_cons.mpr ⟨ht, htypes⟩
      exact Declared.resolveUnless_congr ht _ fun u hu => ih below hu

/-- **Texts tell types.**  Types that are built from source, by reading them and by putting such types in
for names, have the same text only if they are the same.  So a text is among the texts of some types iff
its type is among them; and whatever plugins a chain has that ask about types of source only, its
descriptions, with all warnings, are those that it would give with the types themselves on the stack. -/
theorem texts_tell_types (chain : Chain) (asks : ∀ r ∈ chain.plugins, r.AsksRead)
    (files : List (List Source.Item)) :
    (∀ t u, IsBuilt t → IsBuilt u → (t.text = u.text ↔ t = u)) ∧
    (∀ (types : List TypeTerm) (t : TypeTerm), (∀ u ∈ types, IsBuilt u) → IsBuilt t →
      (types.map text).contains t.text = types.contains t) ∧
    ∀ t, IsBuilt t →
      chain.resolve (.ofFiles files) t = chain.resolveByType (.ofFiles files) t := by
  refine ⟨fun t u ht hu => ht.isRead.text_inj hu.isRead, fun types t htypes ht => ?_, fun t ht => ?_⟩
  · exact contains_map_text (fun u hu => (htypes u hu).isRead) ht.isRead
  · have empty : ∀ u ∈ ([] : List TypeTerm), IsRead u := fun _ h => absurd h List.not_mem_nil
    exact resolveAt_map_text asks empty ht.isRead

/-- A file with trees, which hold something and a list of further trees. -/
def treeFile : List Source.Item :=
  (Source.Item.parseFile? "pub struct Tree<T> \x7b top: T, below: Vec<Tree<T>> \x7d").getD []

/-- `Tree<u8>`. -/
def treeOfNumbers : TypeTerm := .applied "Tree" [.named "u8"]

/-- `Tree<Tree<u8>[]>`. -/
def treeOfTrees : TypeTerm := .applied "Tree" [.array treeOfNumbers]

/-- A tree of trees, put together from two types, while a tree of trees is being described: it is met
again, but the trees that it holds are not. -/
theorem treeOfTrees_met :
    (IsBuilt treeOfTrees ∧ IsBuilt treeOfNumbers ∧ ∀ r ∈ Spring.chain.plugins, r.AsksRead) ∧
    ((TypeIndex.ofFiles [treeFile]).find? "Tree").isSome = true ∧
    (treeOfTrees.text = treeOfNumbers.text ↔ treeOfTrees = treeOfNumbers) ∧
    ["Tree<Tree<u8>[]>"].contains treeOfTrees.text = true ∧
    ["Tree<Tree<u8>[]>"].contains treeOfNumbers.text = false ∧
    Spring.chain.resolve (.ofFiles [treeFile]) treeOfTrees =
      Spring.chain.resolveByType (.ofFiles [treeFile]) treeOfTrees := by
  have read : parse? "Tree<u8>" = some treeOfNumbers := by decide +kernel
  have readArray : parse? "&[Tree<u8>]" = some (.array treeOfNumbers) := by decide +kernel
  have readTree : parse? "Tree<T>" = some (.applied "Tree" [.named "T"]) := by decide +kernel
  have numbers : IsBuilt treeOfNumbers := isBuilt_of_parse? read
  have bound : ∀ b ∈ [("T", TypeTerm.array treeOfNumbers)], IsBuilt b.2 := by
    simpa using isBuilt_of_parse? readArray
  have trees : IsBuilt treeOfTrees := (isBuilt_of_parse? readTree).substitute bound
  have asks : ∀ r ∈ Spring.chain.plugins, r.AsksRead :=
    fun r hr => (IsBuiltIn.isDirect (.inr rfl) r hr).asksRead
  obtain ⟨same, met, described⟩ := texts_tell_types Spring.chain asks [treeFile]
  have among : ∀ u ∈ [treeOfTrees], IsBuilt u := by simpa using trees
  exact ⟨⟨trees, numbers, asks⟩, by decide +kernel, same _ _ trees numbers,
    met [treeOfTrees] _ among trees, met [treeOfTrees] _ among numbers, described _ trees⟩

end Chain
end RouteBook
