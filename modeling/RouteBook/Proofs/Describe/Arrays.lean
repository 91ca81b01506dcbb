import RouteBook.Proofs.Declared.Index
import RouteBook.Proofs.Declared.ReadTypes
import RouteBook.Proofs.Describe.Run
import RouteBook.Proofs.Describe.Wrappers
/-! # Arrays

An array is described as the list of its elements, one level further down, if the elements have a
description (`Chain.resolveAt_array`).  If they have none, the declaration that belongs to the name
of the elements is tried on the array itself.  This module shows that the attempt is in vain: an
array is available only if its elements are (`Chain.available_element`).

The two cases differ in one level and in what is on the stack: the text of the array, or that of its
elements.  Neither makes a type unavailable.  A run that comes to the end of the levels earlier, or
that meets a type on the stack earlier, ends with a marker, and markers are available
(`Chain.available_of_covered`).
-/
namespace RouteBook

namespace TypeTerm

/-- A type is `base` in some layers of arrays. -/
inductive Layers (base : TypeTerm) : TypeTerm → Prop
  | none : Layers base base
  | more {t : TypeTerm} (h : Layers base t) : Layers base (.array t)

/-- A text is `s` with some pairs of brackets behind it. -/
inductive Bracketed (s : String) : String → Prop
  | none : Bracketed s s
  | more {u : String} (h : Bracketed s u) : Bracketed s (u ++ "[]")

theorem exists_layers (t : TypeTerm) : ∃ base, base.isArray = false ∧ Layers base t :=
  match t with
  | .applied name args => ⟨.applied name args, rfl, .none⟩
  | .array element =>
    let ⟨base, plain, layers⟩ := exists_layers element
    ⟨base, plain, .more layers⟩

variable {base t : TypeTerm}

theorem Layers.name_eq (h : Layers base t) : t.name = base.name := by
  induction h with
  | none => rfl
  | more _ ih => exact ih

theorem Layers.bracketed (h : Layers base t) : Bracketed base.text t.text := by
  induction h with
  | none => exact .none
  | more _ ih => exact .more ih

theorem IsRead.first {u : TypeTerm} (h : IsRead t) (hu : t.first? = some u) : IsRead u :=
  h.args u (List.mem_of_mem_head? hu)

/-- Only the text of an array ends with a square bracket. -/
theorem IsRead.isArray_of_text {u : String} (h : IsRead t) (htext : t.text = u ++ "[]") :
    ∃ element, t = .array element ∧ element.text = u := by
  cases harray : t.isArray with
  | true =>
    cases t with
    | applied => cases harray
    | array element =>
      refine ⟨element, rfl, ?_⟩
      have chars := congrArg String.toList htext
      rw [text, String.toList_append, String.toList_append] at chars
      exact String.toList_injective (List.append_cancel_right chars)
  | false =>
    have last : t.text.toList.getLast? = some ']' := by
      rw [htext, String.toList_append, List.getLast?_append]
      rfl
    rcases h.getLast_text harray _ last with he | he | he
    · exact absurd he (by decide)
    · exact absurd he (by decide)
    · exact absurd he (by decide)

/-- Types with brackets at the end of their texts are arrays of types with the texts in front. -/
theorem IsRead.exists_layers {s : String} (h : IsRead t) (htext : Bracketed s t.text) :
    ∃ base, base.text = s ∧ Layers base t := by
  generalize hu : t.text = u at htext
  induction htext generalizing t with
  | none => exact ⟨t, hu, .none⟩
  | more _ ih =>
    obtain ⟨element, rfl, he⟩ := h.isArray_of_text hu
    cases h with
    | array h =>
      obtain ⟨base, hbase, layers⟩ := ih h he
      exact ⟨base, hbase, .more layers⟩

end TypeTerm

/-! ### More and fewer answers -/

namespace Resolver

variable {last : Resolver} {scope : Scope} {t : TypeTerm} {rs : List Resolver}

/-- A direct resolver that has an answer still has one when more is known about the first
argument. -/
theorem IsDirect.available_of_more {r : Resolver} (direct : r.IsDirect) {index : TypeIndex}
    {answer answer' : TypeTerm → Logged Schema}
    (more : ∀ u, t.first? = some u → (answer u).value.isAvailable = true →
      (answer' u).value.isAvailable = true)
    (available : (r ⟨index, answer⟩ t).value.isAvailable = true) :
    (r ⟨index, answer'⟩ t).value.isAvailable = true := by
  rcases direct index t with ⟨x, hx⟩ | ⟨u, hu, f, kept, hf⟩
  · rw [hx] at available ⊢
    exact available
  · rw [hf, kept] at available ⊢
    exact more u hu available

/-- What is asked in order has an available answer iff a resolver has one, or the last one has. -/
theorem available_first_iff :
    (first last scope t rs).value.isAvailable = true ↔
      (∃ r ∈ rs, (r scope t).value.isAvailable = true) ∨
        (last scope t).value.isAvailable = true := by
  rcases first_cases last scope t rs with ⟨r, hr, available, he⟩ | ⟨unknown, he⟩
  · rw [he]
    exact ⟨fun _ => .inl ⟨r, hr, available⟩, fun _ => available⟩
  · rw [he]
    refine ⟨.inr, fun h => h.resolve_left ?_⟩
    rintro ⟨r, hr, available⟩
    rw [unknown r hr] at available
    cases available

end Resolver

namespace Declared

theorem available_addFields {inner : TypeTerm → Logged Schema} {r : RecordShape} {t : TypeTerm}
    {object : Schema} (available : object.isAvailable = true) (fields : List FieldShape) :
    (addFields inner r t object fields).value.isAvailable = true := by
  refine addFields_induction (motive := fun s => s.isAvailable = true) ?_ ?_ available fields
  · intro object u available _
    rw [Schema.isAvailable, Schema.label_merge]
    exact available
  · intro object f u available _
    rw [Schema.isAvailable, Schema.label_addField]
    exact available

/-- A declaration has an available description, but for a synonym that is not being described and
whose target has none. -/
theorem available_resolve_iff {index : TypeIndex} {expanding : List String}
    {inner : TypeTerm → Logged Schema} {t : TypeTerm} :
    (resolve index expanding inner t).value.isAvailable = true ↔
      index.find? t.name ≠ none ∧ ∀ target, index.find? t.name = some (.synonym target) →
        t.text ∈ expanding ∨ (inner target).value.isAvailable = true := by
  have marker : (Schema.recursive t.text).isAvailable = true := rfl
  unfold resolve
  cases declared : index.find? t.name with
  | none => simp
  | some shape =>
    cases shape with
    | choice name variants =>
      obtain ⟨remark, he⟩ := choice_eq name variants
      have shown : (choice name variants).isAvailable = true := by
        rw [he]
        rfl
      simp [shown]
    | record r =>
      have shown : (addFields inner r t (.emptyObject t.text) r.fields).value.isAvailable = true :=
        available_addFields rfl r.fields
      by_cases met : t.text ∈ expanding
      · simp [met, marker]
      · simp [met, shown]
    | synonym target =>
      by_cases met : t.text ∈ expanding
      · simp [met, marker]
      · simp [met]

end Declared

namespace Chain
open Resolver

variable {chain : Chain} {index : TypeIndex} {levels : Nat} {expanding : List String}

/-- A type has an available description if a resolver has one, or its declaration has. -/
theorem available_resolveAt_iff {t : TypeTerm} :
    (chain.resolveAt index (levels + 1) expanding t).value.isAvailable = true ↔
      (∃ r ∈ chain.resolvers,
        (r (chain.scopeAt index levels expanding) t).value.isAvailable = true) ∨
      (Declared.resolve index expanding (chain.resolveAt index levels (t.text :: expanding))
        t).value.isAvailable = true :=
  available_first_iff

/-! ### Arrays and their elements -/

/-- The resolver for collections is asked. -/
theorem collection_mem_resolvers (chain : Chain) : Standard.collection ∈ chain.resolvers :=
  List.mem_append_right _ (by simp [Standard.resolvers])

theorem collection_array (scope : Scope) (element : TypeTerm) :
    (Standard.collection scope (.array element)).value.isAvailable =
      (scope.resolve element).value.isAvailable := by
  have step := bind_ite_isAvailable (scope.resolve element) .ofElement (.array element)
  have built : Standard.collection scope (.array element) = _ := step
  rw [built]
  exact isAvailable_ite (fun _ => rfl) _ _

/-- **An array of types that are available** is available. -/
theorem available_array {element : TypeTerm}
    (h : (chain.resolveAt index levels expanding element).value.isAvailable = true) :
    (chain.resolveAt index (levels + 1) expanding (.array element)).value.isAvailable = true := by
  refine available_resolveAt_iff.mpr (.inl ⟨_, chain.collection_mem_resolvers, ?_⟩)
  rw [collection_array]
  exact h

/-- So are several layers of arrays around it. -/
theorem available_layers {base t : TypeTerm} (layers : TypeTerm.Layers base t)
    (h : ∀ fewer, fewer ≤ levels →
      (chain.resolveAt index fewer expanding base).value.isAvailable = true) :
    (chain.resolveAt index levels expanding t).value.isAvailable = true := by
  induction layers generalizing levels with
  | none => exact h levels (Nat.le_refl levels)
  | more _ ih =>
    cases levels with
    | zero => rfl
    | succ levels =>
      exact available_array (ih fun fewer le => h fewer (Nat.le_succ_of_le le))

/-- A type that is being described is available, if it is declared. -/
theorem available_of_mem {t : TypeTerm} (met : t.text ∈ expanding)
    (declared : index.find? t.name ≠ none) (levels : Nat) :
    (chain.resolveAt index levels expanding t).value.isAvailable = true := by
  cases levels with
  | zero => rfl
  | succ levels =>
    refine available_resolveAt_iff.mpr (.inr (Declared.available_resolve_iff.mpr ?_))
    exact ⟨declared, fun _ _ => .inl met⟩

/-- **Fewer levels and more types being described** leave a type available.  What is met on the
first stack is met on the second one with some layers of arrays around it, or earlier. -/
theorem available_of_covered (direct : chain.IsDirect)
    (read : ∀ name target, index.find? name = some (.synonym target) → target.IsRead)
    {levels' : Nat} {expanding' : List String} {t : TypeTerm} (ht : t.IsRead)
    (fewer : levels' ≤ levels)
    (covered : ∀ s ∈ expanding, ∃ u ∈ expanding', TypeTerm.Bracketed u s)
    (h : (chain.resolveAt index levels expanding t).value.isAvailable = true) :
    (chain.resolveAt index levels' expanding' t).value.isAvailable = true := by
  induction levels generalizing levels' expanding expanding' t with
  | zero =>
    obtain rfl := Nat.le_zero.mp fewer
    rfl
  | succ levels ih =>
    cases levels' with
    | zero => rfl
    | succ levels' =>
      have below : levels' ≤ levels := Nat.le_of_succ_le_succ fewer
      rcases available_resolveAt_iff.mp h with ⟨r, hr, answered⟩ | declared
      · refine available_resolveAt_iff.mpr (.inl ⟨r, hr, ?_⟩)
        refine (direct.of_mem hr).available_of_more (fun u hu available => ?_) answered
        exact ih (ht.first hu) below covered available
      · obtain ⟨known, parts⟩ := Declared.available_resolve_iff.mp declared
        by_cases met : t.text ∈ expanding
        · obtain ⟨s, hs, bracketed⟩ := covered t.text met
          obtain ⟨base, rfl, layers⟩ := ht.exists_layers bracketed
          rw [layers.name_eq] at known
          exact available_layers layers fun fewer _ => available_of_mem hs known fewer
        · refine available_resolveAt_iff.mpr (.inr (Declared.available_resolve_iff.mpr ?_))
          refine ⟨known, fun target hsynonym => .inr ?_⟩
          refine ih (read _ _ hsynonym) below ?_ ((parts target hsynonym).resolve_left met)
          intro s hs
          rcases List.mem_cons.mp hs with rfl | hs
          · exact ⟨_, List.mem_cons_self, .none⟩
          · obtain ⟨u, hu, bracketed⟩ := covered s hs
            exact ⟨u, List.mem_cons_of_mem _ hu, bracketed⟩

/-- Only the resolver for collections knows arrays. -/
theorem IsBuiltIn.eq_collection_or (hchain : chain.IsBuiltIn) {r : Resolver}
    (hr : r ∈ chain.resolvers) :
    r = Standard.collection ∨
      ∀ scope element, r scope (.array element) = unknown (.array element) := by
  rcases List.mem_append.mp hr with hr | hr
  · rw [hchain.eq_component hr]
    exact .inr fun _ _ => rfl
  · simp only [Standard.resolvers, List.mem_cons, List.not_mem_nil, or_false] at hr
    rcases hr with rfl | rfl | rfl | rfl | rfl | rfl
    · exact .inr fun _ _ => rfl
    · exact .inr fun _ _ => rfl
    · exact .inr fun _ _ => rfl
    · exact .inl rfl
    · exact .inr fun _ _ => rfl
    · exact .inr fun _ _ => rfl

/-- **An array is available only if its elements are**, where nothing is being described. -/
theorem available_element (hchain : chain.IsBuiltIn)
    (read : ∀ name target, index.find? name = some (.synonym target) → target.IsRead)
    {element : TypeTerm}
    (h : (chain.resolveAt index (levels + 1) [] (.array element)).value.isAvailable = true) :
    (chain.resolveAt index levels [] element).value.isAvailable = true := by
  rcases available_resolveAt_iff.mp h with ⟨r, hr, answered⟩ | declared
  · rcases hchain.eq_collection_or hr with rfl | none
    · rw [collection_array] at answered
      exact answered
    · rw [none] at answered
      cases answered
  · -- the declaration is that of the innermost elements, which it makes available as well
    obtain ⟨known, parts⟩ := Declared.available_resolve_iff.mp declared
    obtain ⟨base, -, layers⟩ := TypeTerm.exists_layers element
    have name : (TypeTerm.array element).name = base.name := layers.name_eq
    rw [name] at known parts
    refine available_layers layers fun fewer le => ?_
    cases fewer with
    | zero => rfl
    | succ fewer =>
      refine available_resolveAt_iff.mpr (.inr (Declared.available_resolve_iff.mpr ?_))
      refine ⟨known, fun target hsynonym => .inr ?_⟩
      have available := (parts target hsynonym).resolve_left List.not_mem_nil
      refine available_of_covered hchain.isDirect read (read _ _ hsynonym)
        (Nat.le_of_succ_le le) ?_ available
      intro s hs
      obtain rfl := List.mem_singleton.mp hs
      exact ⟨_, List.mem_singleton.mpr rfl, layers.more.bracketed⟩

/-- **An array takes a level** and is described as the list of its elements. -/
theorem resolveAt_array (hchain : chain.IsBuiltIn) {element : TypeTerm}
    (available : (chain.resolveAt index levels expanding element).value.isAvailable = true) :
    chain.resolveAt index (levels + 1) expanding (.array element) =
      ⟨.ofElement (chain.resolveAt index levels expanding element).value,
        (chain.resolveAt index levels expanding element).warnings⟩ := by
  have answer : Standard.collection (chain.scopeAt index levels expanding) (.array element) =
      ⟨.ofElement (chain.resolveAt index levels expanding element).value,
        (chain.resolveAt index levels expanding element).warnings⟩ := by
    refine (bind_ite_isAvailable (chain.resolveAt index levels expanding element) .ofElement
      (.array element)).trans ?_
    rw [available]
    rfl
  have turn : chain.plugins ++ Standard.resolvers =
      (chain.plugins ++ [Standard.primitive, Standard.text, Standard.option]) ++
        Standard.collection :: [Standard.map, Standard.wrapper] := by
    rw [List.append_assoc]
    rfl
  have passed : ∀ q ∈ chain.plugins ++ [Standard.primitive, Standard.text, Standard.option],
      q (chain.scopeAt index levels expanding) (.array element) = unknown (.array element) := by
    intro q hq
    rcases List.mem_append.mp hq with hq | hq
    · rw [hchain.eq_component hq]
      rfl
    · simp only [List.mem_cons, List.not_mem_nil, or_false] at hq
      rcases hq with rfl | rfl | rfl <;> rfl
  rw [resolveAt, turn]
  refine (first_eq_of_turn passed ?_).trans answer
  rw [answer]
  rfl

end Chain
end RouteBook
