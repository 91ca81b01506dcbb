import RouteBook.Proofs.Describe.Run
/-! # Descriptions do not depend on their context

A type is described the same way wherever it stands: at the top, inside a structure or a list, with
however many levels left and whatever else being described further up.  Two things are excepted,
and both can be seen in the run: it may come to the end of the levels, and it may meet a type that
was being described when it started (`Chain.Undisturbed` excludes the two).

The proof runs the two descriptions side by side (`Chain.describe_eq`).  Below the types that were
being described at the start, both runs have put the same texts on the stack; as the run never
meets one of the former, a text is on one stack iff it is on the other.  Direct resolvers then ask
the same questions, and by induction they get the same answers; an attempt that fails in one run
fails in the other with the same warnings.
-/
namespace RouteBook

/-! ### One step in two contexts -/

namespace Resolver

/-- Asking in order gives the same in two scopes if each resolver whose turn comes in both of them
gives the same, and so does the last one. -/
theorem first_congr {scope₁ scope₂ : Scope} {t : TypeTerm} {last₁ last₂ : Resolver}
    {rs : List Resolver}
    (turns : ∀ before r after, rs = before ++ r :: after →
      AllUnknown before scope₁ t → AllUnknown before scope₂ t → r scope₁ t = r scope₂ t)
    (lasts : AllUnknown rs scope₁ t → AllUnknown rs scope₂ t → last₁ scope₁ t = last₂ scope₂ t) :
    first last₁ scope₁ t rs = first last₂ scope₂ t rs := by
  induction rs with
  | nil => exact lasts (allUnknown_nil _ t) (allUnknown_nil _ t)
  | cons r rs ih =>
    have same : r scope₁ t = r scope₂ t :=
      turns [] r rs rfl (allUnknown_nil _ t) (allUnknown_nil _ t)
    simp only [first, same]
    refine Logged.bind_congr_value _ ?_
    cases available₂ : (r scope₂ t).value.isAvailable with
    | true => rfl
    | false =>
      -- the attempt has failed in both scopes, so both go on to the other resolvers
      have available₁ : (r scope₁ t).value.isAvailable = false := by
        rw [same]
        exact available₂
      refine ih ?_ ?_
      · intro before q after turn unknown₁ unknown₂
        exact turns (r :: before) q after (by rw [turn, List.cons_append])
          (unknown₁.cons available₁) (unknown₂.cons available₂)
      · intro unknown₁ unknown₂
        exact lasts (unknown₁.cons available₁) (unknown₂.cons available₂)

end Resolver

namespace Declared

/-- The fields of a structure are described the same way if their types are. -/
theorem addFields_congr {inner₁ inner₂ : TypeTerm → Logged Schema} {r : RecordShape} {t : TypeTerm}
    (object : Schema) {fields : List FieldShape}
    (agree : ∀ f ∈ fields, f.rules.skip = false →
      inner₁ (f.type.substitute (bindings r t)) = inner₂ (f.type.substitute (bindings r t))) :
    addFields inner₁ r t object fields = addFields inner₂ r t object fields := by
  induction fields generalizing object with
  | nil => rfl
  | cons f fields ih =>
    have step : addField inner₁ r t object f = addField inner₂ r t object f := by
      unfold addField
      cases kept : f.rules.skip with
      | true => rfl
      | false => simp only [agree f List.mem_cons_self kept]
    simp only [addFields, step]
    refine Logged.bind_congr_value _ ?_
    exact ih _ fun g hg => agree g (List.mem_cons_of_mem _ hg)

/-- A declaration gives the same in two contexts if its type is being described in both of them or
in neither, and in the latter case its parts are described the same way. -/
theorem resolve_congr {index₁ index₂ : TypeIndex} {t : TypeTerm}
    {expanding₁ expanding₂ : List String} {inner₁ inner₂ : TypeTerm → Logged Schema}
    (same : index₁.find? t.name = index₂.find? t.name)
    (record : ∀ r, index₂.find? t.name = some (.record r) →
      (t.text ∈ expanding₁ ↔ t.text ∈ expanding₂) ∧
      (t.text ∉ expanding₁ → t.text ∉ expanding₂ → ∀ f ∈ r.fields, f.rules.skip = false →
        inner₁ (f.type.substitute (bindings r t)) = inner₂ (f.type.substitute (bindings r t))))
    (synonym : ∀ target, index₂.find? t.name = some (.synonym target) →
      (t.text ∈ expanding₁ ↔ t.text ∈ expanding₂) ∧
      (t.text ∉ expanding₁ → t.text ∉ expanding₂ → inner₁ target = inner₂ target)) :
    resolve index₁ expanding₁ inner₁ t = resolve index₂ expanding₂ inner₂ t := by
  unfold resolve
  rw [same]
  cases declared : index₂.find? t.name with
  | none => rfl
  | some shape =>
    cases shape with
    | choice name variants => rfl
    | record r =>
      obtain ⟨same, parts⟩ := record r declared
      by_cases new : t.text ∈ expanding₁
      · simp [new, same.mp new]
      · have new₂ : t.text ∉ expanding₂ := fun h => new (same.mpr h)
        simp only [List.contains_eq_mem, new, new₂, decide_false, Bool.false_eq_true, if_false]
        exact addFields_congr _ (parts new new₂)
    | synonym target =>
      obtain ⟨same, parts⟩ := synonym target declared
      by_cases new : t.text ∈ expanding₁
      · simp [new, same.mp new]
      · have new₂ : t.text ∉ expanding₂ := fun h => new (same.mpr h)
        simp only [List.contains_eq_mem, new, new₂, decide_false, Bool.false_eq_true, if_false]
        exact parts new new₂

end Declared

/-! ### Two runs side by side -/

namespace Chain

/-- **An undisturbed run**: it never comes to the end of the levels, and it never meets one of the
types with the texts `above`. -/
structure Undisturbed (chain : Chain) (index : TypeIndex) (above : List String) (c : Call) :
    Prop where
  uncut : ∀ d, chain.Reaches index c d → d.levels ≠ 0
  unmet : ∀ d, chain.Reaches index c d → chain.ChecksStack index d → d.type.text ∉ above

variable {chain : Chain} {index : TypeIndex} {above above₁ above₂ : List String}

/-- A run that warns of no type that is nested too deep never comes to the end of the levels. -/
theorem Reaches.levels_ne_zero {c d : Call} (direct : chain.IsDirect)
    (silent : ∀ u, Warning.nestedTooDeep u ∉ (chain.describe index c).warnings)
    (reaches : chain.Reaches index c d) : d.levels ≠ 0 := by
  obtain ⟨levels, expanding, t⟩ := d
  rintro rfl
  refine silent t (reaches.warnings_subset direct ?_)
  exact List.mem_singleton.mpr rfl

/-- What an undisturbed run leads to is undisturbed. -/
theorem Undisturbed.of_leads {c d : Call} (h : chain.Undisturbed index above c)
    (step : chain.Leads index c d) : chain.Undisturbed index above d where
  uncut e he := h.uncut e (.head step he)
  unmet e he := h.unmet e (.head step he)

/-- The run starts with a level left. -/
theorem Undisturbed.levels_ne_zero {expanding : List String} {t : TypeTerm} :
    ¬ chain.Undisturbed index above ⟨0, expanding, t⟩ :=
  fun h => h.uncut _ .refl rfl

/-- At a call that looks at the stack, the texts of `above` do not count. -/
theorem Undisturbed.mem_expanding_iff {levels : Nat} {own : List String} {t : TypeTerm}
    (h : chain.Undisturbed index above ⟨levels, own ++ above, t⟩)
    (checks : chain.ChecksStack index ⟨levels, own ++ above, t⟩) :
    t.text ∈ own ++ above ↔ t.text ∈ own := by
  have unmet := h.unmet _ .refl checks
  rw [List.mem_append, or_iff_left unmet]

/-- **Two undisturbed runs on the same type agree**, if they have put the same texts on the stack
since they started. -/
theorem describe_eq (direct : chain.IsDirect) {levels₁ levels₂ : Nat} {own : List String}
    {t : TypeTerm} (h₁ : chain.Undisturbed index above₁ ⟨levels₁, own ++ above₁, t⟩)
    (h₂ : chain.Undisturbed index above₂ ⟨levels₂, own ++ above₂, t⟩) :
    chain.describe index ⟨levels₁, own ++ above₁, t⟩ =
      chain.describe index ⟨levels₂, own ++ above₂, t⟩ := by
  induction levels₁ generalizing levels₂ own t with
  | zero => exact absurd h₁ Undisturbed.levels_ne_zero
  | succ levels₁ ih =>
    cases levels₂ with
    | zero => exact absurd h₂ Undisturbed.levels_ne_zero
    | succ levels₂ =>
      refine Resolver.first_congr ?_ ?_
      · -- a resolver asks about a part: both runs lead to it with the same stack
        intro before r after turn unknown₁ unknown₂
        refine (direct.of_mem (Resolver.mem_of_turn turn)).congr fun u asks₁ asks₂ => ?_
        exact ih (h₁.of_leads (.question turn unknown₁ asks₁))
          (h₂.of_leads (.question turn unknown₂ asks₂))
      · -- the declaration counts in both runs, and `t` is on one stack iff it is on the other
        intro counts₁ counts₂
        refine Declared.resolve_congr rfl ?_ ?_
        · intro r declared
          have iff₁ := h₁.mem_expanding_iff (.record counts₁ declared)
          have iff₂ := h₂.mem_expanding_iff (.record counts₂ declared)
          refine ⟨iff₁.trans iff₂.symm, fun new₁ new₂ f hf kept => ?_⟩
          have inner₁ := h₁.of_leads (.field counts₁ declared new₁ hf kept)
          have inner₂ := h₂.of_leads (.field counts₂ declared new₂ hf kept)
          rw [← List.cons_append] at inner₁ inner₂
          exact ih inner₁ inner₂
        · intro target declared
          have iff₁ := h₁.mem_expanding_iff (.synonym counts₁ declared)
          have iff₂ := h₂.mem_expanding_iff (.synonym counts₂ declared)
          refine ⟨iff₁.trans iff₂.symm, fun new₁ new₂ => ?_⟩
          have inner₁ := h₁.of_leads (.target counts₁ declared new₁)
          have inner₂ := h₂.of_leads (.target counts₂ declared new₂)
          rw [← List.cons_append] at inner₁ inner₂
          exact ih inner₁ inner₂

/-- **Descriptions do not depend on their context.**  Two runs on a type, with any levels left and
any types being described, give the same description and the same warnings, unless one of them comes
to the end of the levels or meets a type that was being described when it started. -/
theorem resolveAt_eq_of_undisturbed (chain : Chain) (hchain : chain.IsBuiltIn)
    (index : TypeIndex) (t : TypeTerm) (levels₁ levels₂ : Nat)
    (expanding₁ expanding₂ : List String)
    (h₁ : chain.Undisturbed index expanding₁ ⟨levels₁, expanding₁, t⟩)
    (h₂ : chain.Undisturbed index expanding₂ ⟨levels₂, expanding₂, t⟩) :
    chain.resolveAt index levels₁ expanding₁ t = chain.resolveAt index levels₂ expanding₂ t := by
  show chain.describe index ⟨levels₁, [] ++ expanding₁, t⟩ =
    chain.describe index ⟨levels₂, [] ++ expanding₂, t⟩
  exact describe_eq hchain.isDirect h₁ h₂

/-- Orders hold an item. -/
def orderIndex : TypeIndex where
  shapes :=
    [("Order", .record ⟨"Order", [], [⟨"item", .named "Item", .none, none, none⟩]⟩),
      ("Item", .record ⟨"Item", [], [⟨"id", .named "u64", .none, none, none⟩]⟩)]

/-- A run on items meets items and numbers only. -/
theorem item_of_reaches {levels : Nat} {expanding : List String} {c : Call}
    (reaches : Spring.chain.Reaches orderIndex ⟨levels, expanding, .named "Item"⟩ c) :
    c.type = .named "Item" ∨ c.type = .named "u64" := by
  have direct : Spring.chain.IsDirect := IsBuiltIn.isDirect (.inr rfl)
  have number : orderIndex.find? "u64" = none := by decide
  induction reaches with
  | refl => exact .inl rfl
  | tail _ step ih =>
    have plain : ∀ {name}, TypeTerm.first? (.named name) = none := rfl
    rcases ih with item | leaf
    · rcases step.declared direct (by rw [item]; exact plain) with ⟨r, declared, f, hf, he⟩ | declared
      · rw [item] at declared he
        cases declared
        rw [he, List.mem_singleton.mp hf]
        exact .inr rfl
      · rw [item] at declared
        cases declared
    · -- numbers are not declared
      rcases step.declared direct (by rw [leaf]; exact plain) with ⟨r, declared, -⟩ | declared
      · rw [leaf] at declared
        cases number.symm.trans declared
      · rw [leaf] at declared
        cases number.symm.trans declared

/-- It looks at the stack for the item only. -/
theorem item_of_checksStack {levels : Nat} {expanding : List String} {c : Call}
    (reaches : Spring.chain.Reaches orderIndex ⟨levels, expanding, .named "Item"⟩ c)
    (checks : Spring.chain.ChecksStack orderIndex c) : c.type = .named "Item" := by
  rcases item_of_reaches reaches with item | leaf
  · exact item
  · refine absurd ?_ checks.declared
    rw [leaf]
    decide

theorem item_undisturbed {levels : Nat} {above : List String} (new : "Item" ∉ above)
    (silent : (Spring.chain.describe orderIndex ⟨levels, above, .named "Item"⟩).warnings = []) :
    Spring.chain.Undisturbed orderIndex above ⟨levels, above, .named "Item"⟩ where
  uncut d reaches := by
    refine reaches.levels_ne_zero (IsBuiltIn.isDirect (.inr rfl)) fun u => ?_
    rw [silent]
    exact List.not_mem_nil
  unmet d reaches checks := by
    rw [item_of_checksStack reaches checks]
    exact new

/-- An item is described inside an order as it is at the top. -/
theorem item_in_order :
    Spring.chain.Undisturbed orderIndex [] ⟨maxNesting, [], .named "Item"⟩ ∧
    Spring.chain.Undisturbed orderIndex ["Order"] ⟨maxNesting - 1, ["Order"], .named "Item"⟩ ∧
    Spring.chain.resolveAt orderIndex maxNesting [] (.named "Item") =
      Spring.chain.resolveAt orderIndex (maxNesting - 1) ["Order"] (.named "Item") := by
  have top : Spring.chain.Undisturbed orderIndex [] ⟨maxNesting, [], .named "Item"⟩ :=
    item_undisturbed (by decide) (by decide +kernel)
  have inside :
      Spring.chain.Undisturbed orderIndex ["Order"] ⟨maxNesting - 1, ["Order"], .named "Item"⟩ :=
    item_undisturbed (by decide) (by decide +kernel)
  refine ⟨top, inside, ?_⟩
  exact resolveAt_eq_of_undisturbed Spring.chain (.inr rfl) orderIndex _ _ _ _ _ top inside

end Chain
end RouteBook
