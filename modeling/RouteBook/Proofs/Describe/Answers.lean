import RouteBook.Spring.Components
/-! # What a chain can answer

Every invariant of descriptions has to survive every resolver of the chain.  This module says once
what each of them can answer, given what the chain says about the parts of a type
(`Standard.Answer`, `Spring.Answer`, `Declared.Answer`), and what the chain makes of that
(`Chain.resolveAt_succ_cases`): an available answer of a plugin, an available answer of the standard
library, or else what the declaration gives.  An invariant is then a short case analysis, and no
proof about descriptions opens a resolver again.
-/
namespace RouteBook

/-! ### Asking in order -/

namespace Resolver

@[simp] theorem value_unknown (t : TypeTerm) : (unknown t).value = .unavailable t.text := rfl

/-- No resolver has an answer to `t`. -/
def AllUnknown (rs : List Resolver) (scope : Scope) (t : TypeTerm) : Prop :=
  ∀ r ∈ rs, (r scope t).value.isAvailable = false

theorem allUnknown_nil (scope : Scope) (t : TypeTerm) : AllUnknown [] scope t :=
  fun _ h => absurd h List.not_mem_nil

theorem AllUnknown.cons {r : Resolver} {rs : List Resolver} {scope : Scope} {t : TypeTerm}
    (hr : (r scope t).value.isAvailable = false) (hrs : AllUnknown rs scope t) :
    AllUnknown (r :: rs) scope t := by
  intro q hq
  rcases List.mem_cons.mp hq with rfl | hq
  · exact hr
  · exact hrs q hq

/-- The value that counts is an available one of some resolver, or the last resolver's if no other
one has an answer. -/
theorem first_cases (last : Resolver) (scope : Scope) (t : TypeTerm) (rs : List Resolver) :
    (∃ r ∈ rs, (r scope t).value.isAvailable = true ∧
      (first last scope t rs).value = (r scope t).value) ∨
    (AllUnknown rs scope t ∧ (first last scope t rs).value = (last scope t).value) := by
  induction rs with
  | nil => exact .inr ⟨allUnknown_nil scope t, rfl⟩
  | cons r rs ih =>
    cases hr : (r scope t).value.isAvailable with
    | true =>
      refine .inl ⟨r, List.mem_cons_self, hr, ?_⟩
      simp [first, hr]
    | false =>
      have step : (first last scope t (r :: rs)).value = (first last scope t rs).value := by
        simp [first, hr]
      rw [step]
      rcases ih with ⟨q, hq, available, he⟩ | ⟨unknown, he⟩
      · exact .inl ⟨q, List.mem_cons_of_mem _ hq, available, he⟩
      · exact .inr ⟨unknown.cons hr, he⟩

end Resolver

/-- What a scope says about the parts of a type. -/
def Scope.part (scope : Scope) (t : TypeTerm) : Schema := (scope.resolve t).value

/-- Whether a value has no parts. -/
def Json.isScalar : Json → Bool
  | .array _ => false
  | .object _ => false
  | _ => true

/-! ### The standard library -/

namespace Standard

/-- **The available answers of the standard library** to `t`, where `part` is what the chain says
about the parts of `t`. -/
inductive Answer (index : TypeIndex) (part : TypeTerm → Schema) (t : TypeTerm) : Schema → Prop
  | primitive (sample : Json) (scalar : sample.isScalar = true) :
      Answer index part t (.ofPrimitive t.name sample)
  | text (type : String) : Answer index part t (.ofText type "")
  | optional (u : TypeTerm) : Answer index part t ((part u).withRequired false)
  | elements (u : TypeTerm) (available : (part u).isAvailable = true) :
      Answer index part t (.ofElement (part u))
  | map (known : isOneOf t maps = true) (undeclared : index.find? t.name = none) :
      Answer index part t (.emptyObject t.text)
  | held (u : TypeTerm) : Answer index part t (part u)

variable {scope : Scope} {t : TypeTerm}

theorem answer_primitive (h : (primitive scope t).value.isAvailable = true) :
    Answer scope.index scope.part t (primitive scope t).value := by
  revert h
  unfold primitive
  split
  · exact fun _ => .primitive _ rfl
  · split
    · exact fun _ => .primitive _ rfl
    · split
      · exact fun _ => .primitive _ rfl
      · exact fun h => absurd h Bool.false_ne_true

theorem answer_text (h : (text scope t).value.isAvailable = true) :
    Answer scope.index scope.part t (text scope t).value := by
  revert h
  unfold text
  split
  · exact fun _ => .text _
  · exact fun h => absurd h Bool.false_ne_true

theorem answer_option (h : (option scope t).value.isAvailable = true) :
    Answer scope.index scope.part t (option scope t).value := by
  revert h
  unfold option
  split
  · rename_i inner _
    split
    · exact fun _ => .optional inner
    · exact fun h => absurd h Bool.false_ne_true
  · exact fun h => absurd h Bool.false_ne_true

theorem answer_collection (h : (collection scope t).value.isAvailable = true) :
    Answer scope.index scope.part t (collection scope t).value := by
  revert h
  unfold collection
  split
  · rename_i element _
    split
    · intro h
      cases available : (scope.resolve element).value.isAvailable with
      | true =>
        have answer : Answer scope.index scope.part t (.ofElement (scope.part element)) :=
          .elements element available
        simpa [available, Scope.part] using answer
      | false => simp [available] at h
    · exact fun h => absurd h Bool.false_ne_true
  · exact fun h => absurd h Bool.false_ne_true

theorem answer_map (h : (map scope t).value.isAvailable = true) :
    Answer scope.index scope.part t (map scope t).value := by
  revert h
  unfold map
  split
  · rename_i hm
    rw [Bool.and_eq_true, Option.isNone_iff_eq_none] at hm
    exact fun _ => .map hm.1 hm.2
  · exact fun h => absurd h Bool.false_ne_true

theorem answer_wrapper (h : (wrapper scope t).value.isAvailable = true) :
    Answer scope.index scope.part t (wrapper scope t).value := by
  revert h
  unfold wrapper
  split
  · rename_i inner _
    split
    · exact fun _ => .held inner
    · exact fun h => absurd h Bool.false_ne_true
  · exact fun h => absurd h Bool.false_ne_true

/-- An available answer of a resolver of the standard library is one of `Answer`. -/
theorem answer_of_mem {r : Resolver} (hr : r ∈ resolvers)
    (h : (r scope t).value.isAvailable = true) :
    Answer scope.index scope.part t (r scope t).value := by
  simp only [resolvers, List.mem_cons, List.not_mem_nil, or_false] at hr
  rcases hr with rfl | rfl | rfl | rfl | rfl | rfl
  · exact answer_primitive h
  · exact answer_text h
  · exact answer_option h
  · exact answer_collection h
  · exact answer_map h
  · exact answer_wrapper h

end Standard

/-! ### The framework -/

namespace Spring

/-- **The available answers of the framework's resolver** to `t`. -/
inductive Answer (part : TypeTerm → Schema) (t : TypeTerm) : Schema → Prop
  | held (u : TypeTerm) : Answer part t (part u)
  | file : Answer part t ((Schema.ofText "File" "").addRemark "multipart file")
  | page (u : TypeTerm) (available : (part u).isAvailable = true) :
      Answer part t (page t (part u))
  | pageable : Answer part t pageable

theorem answer_component {scope : Scope} {t : TypeTerm}
    (h : (component scope t).value.isAvailable = true) :
    Answer scope.part t (component scope t).value := by
  revert h
  unfold component
  split
  · exact fun h => absurd h Bool.false_ne_true
  · split
    · split
      · rename_i inner _
        exact fun _ => .held inner
      · exact fun h => absurd h Bool.false_ne_true
    · split
      · exact fun _ => .file
      · split
        · exact fun h => absurd h Bool.false_ne_true
        · split
          · split
            · rename_i inner _
              intro h
              cases available : (scope.resolve inner).value.isAvailable with
              | true =>
                have answer : Answer scope.part t (page t (scope.part inner)) :=
                  .page inner available
                simpa [available, Scope.part] using answer
              | false => simp [available] at h
            · exact fun h => absurd h Bool.false_ne_true
          · split
            · exact fun _ => .pageable
            · exact fun h => absurd h Bool.false_ne_true

end Spring

/-! ### Declarations -/

namespace Declared

/-- **The answers of a declaration** to `t` while the types with the texts `expanding` are being
described, where `inner` is what the chain says about the parts of the declaration. -/
inductive Answer (index : TypeIndex) (expanding : List String)
    (inner : TypeTerm → Logged Schema) (t : TypeTerm) : Schema → Prop
  | undeclared (h : index.find? t.name = none) :
      Answer index expanding inner t (.unavailable t.text)
  | choice (name : String) (variants : List String)
      (h : index.find? t.name = some (.choice name variants)) :
      Answer index expanding inner t (choice name variants)
  | marker (h : t.text ∈ expanding) : Answer index expanding inner t (.recursive t.text)
  | record (r : RecordShape) (h : index.find? t.name = some (.record r))
      (new : t.text ∉ expanding) :
      Answer index expanding inner t
        (addFields inner r t (.emptyObject t.text) r.fields).value
  | synonym (target : TypeTerm) (h : index.find? t.name = some (.synonym target))
      (new : t.text ∉ expanding) :
      Answer index expanding inner t (inner target).value

theorem answer_resolve (index : TypeIndex) (expanding : List String)
    (inner : TypeTerm → Logged Schema) (t : TypeTerm) :
    Answer index expanding inner t (resolve index expanding inner t).value := by
  unfold resolve
  cases h : index.find? t.name with
  | none => exact .undeclared h
  | some shape =>
    cases shape with
    | choice name variants => exact .choice name variants h
    | record r =>
      by_cases new : t.text ∈ expanding
      · simpa [new] using Answer.marker new
      · simpa [new] using Answer.record r h new
    | synonym target =>
      by_cases new : t.text ∈ expanding
      · simpa [new] using Answer.marker new
      · simpa [new] using Answer.synonym target h new

/-- An enumeration is a text, whatever its words are. -/
theorem choice_eq (name : String) (variants : List String) :
    ∃ remark, choice name variants =
      .text { Label.ofType name with remark := remark } (variants.headD "") := by
  unfold choice
  split
  · exact ⟨none, rfl⟩
  · obtain ⟨remark, he⟩ := Schema.Label.addRemark_eq (Label.ofType name)
      ("enum: " ++ Text.joined ", " variants)
    refine ⟨remark, ?_⟩
    rw [← he]
    rfl

/-- What a field says about its schema comes down to its key and a few edits of the root. -/
theorem applyField_induction {motive : Schema → Prop} {s : Schema} (f : FieldShape)
    (keyed : motive (s.withKey f.key))
    (required : ∀ s, motive s → motive (s.withRequired false))
    (remarked : ∀ s remark, motive s → motive (s.addRemark remark))
    (filled : ∀ s written, motive s → motive (s.setFallback written)) :
    motive (applyField f s) := by
  have atLeast : motive
      (if f.rules.default then (s.withKey f.key).withRequired false else s.withKey f.key) := by
    split
    · exact required _ keyed
    · exact keyed
  unfold applyField
  cases f.remark with
  | none =>
    cases f.fallback with
    | none => exact atLeast
    | some written => exact filled _ written atLeast
  | some remark =>
    have noted := remarked _ remark atLeast
    cases f.fallback with
    | none => exact noted
    | some written => exact filled _ written noted

/-- **What the walk over the fields of a structure preserves.**  Each field leaves the object as it
is, merges the description of a type into it, or adds the description as a field. -/
theorem addFields_induction {motive : Schema → Prop} {inner : TypeTerm → Logged Schema}
    {r : RecordShape} {t : TypeTerm}
    (merged : ∀ object u, motive object → (inner u).value.isAvailable = true →
      motive (object.merge (inner u).value))
    (added : ∀ object f u, motive object → (inner u).value.isAvailable = true →
      motive (object.addField (applyField f (inner u).value)))
    {object : Schema} (start : motive object) (fields : List FieldShape) :
    motive (addFields inner r t object fields).value := by
  induction fields generalizing object with
  | nil => exact start
  | cons f fields ih =>
    refine ih ?_
    let u := f.type.substitute (bindings r t)
    unfold addField
    split
    · exact start
    · cases available : (inner u).value.isAvailable with
      | false => simpa [u, available] using start
      | true =>
        cases hf : f.rules.flatten with
        | true => simpa [u, available, hf] using merged object u start available
        | false => simpa [u, available, hf] using added object f u start available

end Declared

/-! ### The whole chain -/

namespace Chain

/-- The chains in use: the one without plugins and the one with those of the framework. -/
def IsBuiltIn (chain : Chain) : Prop := chain = standard ∨ chain = Spring.chain

theorem IsBuiltIn.eq_component {chain : Chain} (h : chain.IsBuiltIn) {r : Resolver}
    (hr : r ∈ chain.plugins) : r = Spring.component := by
  rcases h with rfl | rfl
  · exact absurd hr List.not_mem_nil
  · exact List.mem_singleton.mp hr

/-- What a resolver may use with so many levels left. -/
def scopeAt (chain : Chain) (index : TypeIndex) (levels : Nat) (expanding : List String) :
    Scope :=
  ⟨index, chain.resolveAt index levels expanding⟩

/-- **What a chain can answer** with a level left: a plugin has an answer, or the standard library
has one, or the declaration counts. -/
theorem resolveAt_succ_cases (chain : Chain) (index : TypeIndex) (levels : Nat)
    (expanding : List String) (t : TypeTerm) :
    (∃ r ∈ chain.plugins,
      (r (chain.scopeAt index levels expanding) t).value.isAvailable = true ∧
      (chain.resolveAt index (levels + 1) expanding t).value =
        (r (chain.scopeAt index levels expanding) t).value) ∨
    Standard.Answer index (chain.scopeAt index levels expanding).part t
      (chain.resolveAt index (levels + 1) expanding t).value ∨
    Declared.Answer index expanding (chain.resolveAt index levels (t.text :: expanding)) t
      (chain.resolveAt index (levels + 1) expanding t).value := by
  rcases Resolver.first_cases
      (fun _ t => Declared.resolve index expanding
        (chain.resolveAt index levels (t.text :: expanding)) t)
      (chain.scopeAt index levels expanding) t (chain.plugins ++ Standard.resolvers)
    with ⟨r, hr, available, he⟩ | ⟨-, he⟩
  · rcases List.mem_append.mp hr with hr | hr
    · exact .inl ⟨r, hr, available, he⟩
    · refine .inr (.inl ?_)
      have answer := Standard.answer_of_mem hr available
      rw [← he] at answer
      exact answer
  · refine .inr (.inr ?_)
    have answer := Declared.answer_resolve index expanding
      (chain.resolveAt index levels (t.text :: expanding)) t
    rw [← he] at answer
    exact answer

end Chain
end RouteBook
