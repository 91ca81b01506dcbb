import RouteBook.Proofs.Describe.Arrays
import RouteBook.Proofs.Describe.Lookups
import RouteBook.Proofs.Text.Pieces
/-! # Types that are given by their names

A type can be given as text instead of being written in a signature.  The two ways agree
(`Spring.resolveName_text`): the text of a type that has been read is described as the type is.

Arrays are treated differently on the two sides.  A name loses one pair of brackets after the other,
and the elements are described at the top; the type goes one level down for each array.  The
descriptions are the same, because elements that are not cut off have the same description on every
level (`Chain.describe_congr`).
-/
namespace RouteBook
namespace Spring
open TypeTerm

variable {t base : TypeTerm} {index : TypeIndex}

/-! ### Names of types -/

/-- There is nothing to trim at the text of a type. -/
theorem trimmed_text (h : t.IsRead) : Text.trimmed t.text = t.text := by
  have plain : ∀ {c : Char}, Source.isIdentContinue c = true → Text.isBlank c = false := by
    intro c hc
    cases blank : Text.isBlank c with
    | false => rfl
    | true =>
      rw [Source.isIdentContinue_of_isBlank blank] at hc
      cases hc
  have start : ∀ c ∈ t.text.toList.head?, Text.isBlank c = false := by
    intro c hc
    rcases h.head_text c hc with rfl | hc
    · decide
    · exact plain (Source.isIdentContinue_of_isIdentStart hc)
  have last : ∀ c ∈ t.text.toList.getLast?, Text.isBlank c = false := by
    intro c hc
    cases harray : t.isArray with
    | true =>
      cases t with
      | applied => cases harray
      | array element =>
        rw [text, String.toList_append, List.getLast?_append] at hc
        obtain rfl := Option.some.inj hc
        decide
    | false =>
      rcases h.getLast_text harray c hc with rfl | rfl | hc
      · decide
      · decide
      · exact plain hc
  rw [Text.trimmed, Text.trim_eq_self start last, String.ofList_toList]

theorem elementName?_array (element : TypeTerm) :
    elementName? (TypeTerm.array element).text = some element.text := by
  have chars : (TypeTerm.array element).text.toList.reverse =
      ']' :: '[' :: element.text.toList.reverse := by
    rw [text, String.toList_append, List.reverse_append]
    rfl
  rw [elementName?, chars]
  simp only [List.reverse_reverse, String.ofList_toList]

/-- The text of a type that is no array does not look like one. -/
theorem elementName?_plain (h : t.IsRead) (harray : t.isArray = false) :
    elementName? t.text = none := by
  unfold elementName?
  split
  · rename_i front heq
    have last : t.text.toList.getLast? = some ']' := by
      rw [← List.head?_reverse, heq]
      rfl
    rcases h.getLast_text harray _ last with he | he | he
    · exact absurd he (by decide)
    · exact absurd he (by decide)
    · exact absurd he (by decide)
  · rfl

/-- **The name of an array** is described as the list of what the name without brackets is. -/
theorem resolveNameAt_array (h : (TypeTerm.array t).IsRead) {steps : Nat}
    (available : (chain.resolveNameAt index steps t.text).value.isAvailable = true) :
    chain.resolveNameAt index (steps + 1) (TypeTerm.array t).text =
      ⟨.ofElement (chain.resolveNameAt index steps t.text).value,
        (chain.resolveNameAt index steps t.text).warnings⟩ := by
  let scope : NameScope := ⟨chain.resolve index, chain.resolveNameAt index steps⟩
  have answer : componentName scope (TypeTerm.array t).text =
      ⟨.ofElement (chain.resolveNameAt index steps t.text).value,
        (chain.resolveNameAt index steps t.text).warnings⟩ := by
    unfold componentName
    simp only [trimmed_text h, elementName?_array]
    refine (Logged.bind_of_silent (scope.resolveName t.text) rfl).trans ?_
    show (⟨if (chain.resolveNameAt index steps t.text).value.isAvailable then _ else _, _⟩ :
      Logged Schema) = _
    rw [if_pos available]
  rw [Chain.resolveNameAt]
  show (componentName scope (TypeTerm.array t).text >>= _) = _
  rw [answer]
  exact Logged.bind_of_silent _ rfl

/-- **The name of a type that is no array** is described as the type that it is read as, unless it is
that of a sequence. -/
theorem resolveNameAt_plain (h : t.IsRead) (arrayFree : t.IsArrayFree)
    (tryFree : ¬ t.Mentions "try") (plain : t.name ∉ sequenceNames) (steps : Nat) :
    chain.resolveNameAt index (steps + 1) t.text = chain.resolve index t := by
  let scope : NameScope := ⟨chain.resolve index, chain.resolveNameAt index steps⟩
  have parsed := h.parse?_text arrayFree tryFree
  have sequence : sequenceNames.contains t.name = false := by
    rw [List.contains_eq_mem]
    exact decide_eq_false plain
  have passed : componentName scope t.text = pure (.unavailable t.text) := by
    unfold componentName
    simp only [trimmed_text h, elementName?_plain h arrayFree.isArray, parsed, sequence,
      Bool.false_and, Bool.false_eq_true, if_false]
  rw [Chain.resolveNameAt]
  show (componentName scope t.text >>= _) = _
  rw [passed]
  dsimp only [NameResolver.first]
  rw [parsed]
  rfl

/-! ### Names and types -/

/-- The elements of arrays, described at the top by name, are described below the arrays by type. -/
theorem resolveNameAt_layers {files : List (List Source.Item)} (layers : Layers base t)
    (h : t.IsRead) (arrayFree : base.IsArrayFree) (tryFree : ¬ t.Mentions "try")
    (plain : base.name ∉ sequenceNames) {steps levels : Nat} (enough : t.text.length < steps)
    (le : levels ≤ maxNesting)
    (available : (chain.resolveAt (.ofFiles files) levels [] t).value.isAvailable = true)
    (silent : ∀ u, Warning.nestedTooDeep u ∉
      (chain.resolveAt (.ofFiles files) levels [] t).warnings) :
    chain.resolveNameAt (.ofFiles files) steps t.text =
      chain.resolveAt (.ofFiles files) levels [] t := by
  have builtIn : chain.IsBuiltIn := .inr rfl
  induction layers generalizing steps levels with
  | none =>
    obtain ⟨steps, rfl⟩ : ∃ less, steps = less + 1 := ⟨steps - 1, by omega⟩
    rw [resolveNameAt_plain h arrayFree tryFree plain]
    -- the run is not cut off, so more levels make no difference
    refine Chain.describe_congr builtIn.isDirect (fun r hr => builtIn.isLocal hr)
      (fun _ _ _ _ => rfl) (.inr ⟨le, fun d reaches => ?_⟩)
    refine Chain.Reaches.levels_ne_zero builtIn.isDirect ?_ reaches
    exact silent
  | @more t layers ih =>
    obtain ⟨levels, rfl⟩ : ∃ less, levels = less + 1 :=
      Nat.exists_eq_succ_of_ne_zero (Chain.levels_ne_zero_of_uncut silent)
    obtain ⟨steps, rfl⟩ : ∃ less, steps = less + 1 := ⟨steps - 1, by omega⟩
    have shorter : t.text.length < steps := by
      rw [text, String.length_append] at enough
      have brackets : "[]".length = 2 := rfl
      omega
    have inner := Chain.available_element builtIn (fun _ _ => isRead_of_synonym) available
    have list := Chain.resolveAt_array builtIn inner
    rw [list] at silent ⊢
    have same := ih (by cases h with | array h => exact h) (fun h => tryFree (.element h)) shorter
      (Nat.le_of_succ_le le) inner silent
    rw [resolveNameAt_array h (by rw [same]; exact inner), same]

/-- **Naming a type in text and writing it in a signature agree.**  Let `t` be read from source, and
let the keyword `try` be none of its names.  Without arrays, its text is read as `t`.  With arrays
around a type that has none and is no sequence, if `t` is available and nothing is cut off, then the
text of `t` is described as `t` is. -/
theorem resolveName_text (source : String) (t : TypeTerm) (read : parse? source = some t)
    (tryFree : ¬ t.Mentions "try") :
    (t.IsArrayFree → parse? t.text = some t) ∧
    ∀ (files : List (List Source.Item)) (base : TypeTerm), base.IsArrayFree → Layers base t →
      base.name ∉ sequenceNames →
      (chain.resolve (.ofFiles files) t).value.isAvailable = true →
      (∀ u, Warning.nestedTooDeep u ∉ (chain.resolve (.ofFiles files) t).warnings) →
      chain.resolveName (.ofFiles files) t.text = chain.resolve (.ofFiles files) t := by
  have h := isRead_of_parse? read
  refine ⟨fun arrayFree => h.parse?_text arrayFree tryFree, ?_⟩
  intro files base arrayFree layers plain available silent
  exact resolveNameAt_layers layers h arrayFree tryFree plain (Nat.lt_succ_self _)
    (Nat.le_refl _) available silent

/-- `Result<Vec<u8>, Error>[]`. -/
def results : TypeTerm := .array (.applied "Result" [.applied "Vec" [.named "u8"], .named "Error"])

/-- An array of results by its name. -/
theorem results_named :
    parse? "[Result<std::vec::Vec<u8>, Error>; 4]" = some results ∧
    ¬ results.Mentions "try" ∧
    chain.resolveName (.ofFiles []) results.text = chain.resolve (.ofFiles []) results := by
  have read : parse? "[Result<std::vec::Vec<u8>, Error>; 4]" = some results := by decide +kernel
  have tryFree : ¬ results.Mentions "try" := by
    simp [results, named, mentions_array_iff, mentions_applied_iff]
  have arrayFree : IsArrayFree (.applied "Result" [.applied "Vec" [.named "u8"], .named "Error"]) := by
    simp [named, isArrayFree_applied_iff]
  have available : (chain.resolve (.ofFiles []) results).value.isAvailable = true := by
    decide +kernel
  have silent : (chain.resolve (.ofFiles []) results).warnings = [] := by rfl
  refine ⟨read, tryFree, ?_⟩
  refine (resolveName_text _ results read tryFree).2 [] _ arrayFree (.more .none) (by decide)
    available fun u => ?_
  rw [silent]
  exact List.not_mem_nil

/-- `Json<u8, try>`, as `Json<u8, a::try>` is read. -/
def tryPayload : TypeTerm := .applied "Json" [.named "u8", .named "try"]

/-- The keyword `try` is a segment behind `::`, but it does not begin a path: a type with this name
cannot be read back, although it may be available. -/
theorem tryPayload_not_read_back :
    parse? "Json<u8, a::try>" = some tryPayload ∧ tryPayload.IsArrayFree ∧
    tryPayload.name ∉ sequenceNames ∧
    (chain.resolve (.ofFiles []) tryPayload).value.isAvailable = true ∧
    (chain.resolve (.ofFiles []) tryPayload).warnings = [] ∧
    chain.resolveName (.ofFiles []) tryPayload.text ≠ chain.resolve (.ofFiles []) tryPayload ∧
    parse? tryPayload.text ≠ some tryPayload := by
  have available : (chain.resolve (.ofFiles []) tryPayload).value.isAvailable = true := by
    decide +kernel
  have unavailable :
      (chain.resolveName (.ofFiles []) tryPayload.text).value.isAvailable = false := by
    decide +kernel
  refine ⟨by decide +kernel, ?_, by decide, available, by rfl, ?_, by decide +kernel⟩
  · simp [tryPayload, named, isArrayFree_applied_iff]
  · intro same
    rw [same, available] at unavailable
    cases unavailable

end Spring
end RouteBook
