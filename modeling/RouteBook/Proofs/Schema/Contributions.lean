import RouteBook.Proofs.Schema.Fields
/-! # Filling an object step by step

The fields of a structure and the parameters of a request are walked over one by one, and each of
them does one of three things to the object that is being filled (`Contribution`): it puts a field of
its own under a key, it merges the fields of another object, or it does nothing.

Only the first of these replaces what is there, so the last one under a key decides
(`lookup_run_of_last`): what comes behind it has other keys, or merges, and then only the remark and
the fallback value can still be filled in.  That leaves a field what it says about its type
(`Restates`).
-/
namespace RouteBook
namespace Schema

theorem mapLabel_mapLabel (f g : Label → Label) (s : Schema) :
    (s.mapLabel f).mapLabel g = s.mapLabel fun label => g (f label) := by
  cases s <;> rfl

/-! ### What a field says about its type -/

/-- **A field that restates a schema**, up to the key, to being required, and to a remark and a
fallback value. -/
def Restates (key : Option String) (required : Bool → Bool) (s field : Schema) : Prop :=
  ∃ remark fallback, field = s.mapLabel fun label =>
    { label with
      key := key
      required := required label.required
      remark := remark
      fallback := fallback }

theorem restates_self (s : Schema) : Restates s.label.key id s s := by
  refine ⟨s.label.remark, s.label.fallback, ?_⟩
  cases s <;> rfl

namespace Restates

variable {key : Option String} {required : Bool → Bool} {s field : Schema}

/-- Another remark or fallback value makes no difference. -/
theorem mapLabel {edit : Label → Label} (h : Restates key required s field)
    (same : ∀ label, ∃ remark fallback,
      edit label = { label with remark := remark, fallback := fallback }) :
    Restates key required s (field.mapLabel edit) := by
  obtain ⟨remark, fallback, rfl⟩ := h
  obtain ⟨remark', fallback', he⟩ := same (s.mapLabel fun label =>
    { label with
      key := key
      required := required label.required
      remark := remark
      fallback := fallback }).label
  refine ⟨remark', fallback', ?_⟩
  cases s <;> simpa [Schema.mapLabel, Schema.label] using he

theorem addRemark (h : Restates key required s field) (remark : String) :
    Restates key required s (field.addRemark remark) :=
  h.mapLabel fun label =>
    have ⟨after, he⟩ := Label.addRemark_eq label remark
    ⟨after, label.fallback, he⟩

theorem setFallback (h : Restates key required s field) (written : String) :
    Restates key required s (field.setFallback written) := by
  cases field with
  | primitive label sample =>
    exact h.mapLabel fun label => ⟨label.remark, some (valueLike sample written), rfl⟩
  | text label sample =>
    exact h.mapLabel fun label => ⟨label.remark, some (.text written), rfl⟩
  | array | object => exact h

/-- What a merge fills in is left open. -/
theorem complete (h : Restates key required s field) (other : Schema) :
    Restates key required s (Schema.complete field other) :=
  h.mapLabel fun _ => ⟨_, _, rfl⟩

theorem withKey (h : Restates key required s field) (other : String) :
    Restates (some other) required s (field.withKey other) := by
  obtain ⟨remark, fallback, rfl⟩ := h
  exact ⟨remark, fallback, mapLabel_mapLabel _ _ s⟩

theorem withRequired (h : Restates key required s field) (said : Bool) :
    Restates key (fun _ => said) s (field.withRequired said) := by
  obtain ⟨remark, fallback, rfl⟩ := h
  exact ⟨remark, fallback, mapLabel_mapLabel _ _ s⟩

theorem key_eq (h : Restates key required s field) : field.label.key = key := by
  obtain ⟨remark, fallback, rfl⟩ := h
  rw [label_mapLabel]

end Restates

/-! ### One step -/

/-- **What a step does to the fields of an object.** -/
inductive Contribution where
  /-- Puts a field under a key, in place of what is there. -/
  | own (key : String) (field : Schema)
  /-- Merges the fields of another object. -/
  | merged (others : List (String × Schema))
  | nothing

namespace Contribution

variable {fields : List (String × Schema)} {c : Contribution} {cs : List Contribution}

def addTo (fields : List (String × Schema)) : Contribution → List (String × Schema)
  | own key field => insertPair key field fields
  | merged others => mergeFields fields others
  | nothing => fields

/-- The keys that are given. -/
def keys : Contribution → List String
  | own key _ => [key]
  | merged others => others.map Prod.fst
  | nothing => []

/-- The key under which something may be replaced. -/
def ownKey? : Contribution → Option String
  | own key _ => some key
  | _ => none

/-- The keys after one more step: those that were there, and those that are given. -/
theorem mem_keys_addTo_iff {k : String} :
    k ∈ (c.addTo fields).map Prod.fst ↔ k ∈ fields.map Prod.fst ∨ k ∈ c.keys := by
  cases c with
  | own key field => rw [addTo, mem_keys_insertPair_iff, keys, List.mem_singleton]
  | merged others => exact mem_keys_mergeFields_iff
  | nothing => simp [addTo, keys]

theorem nodup_keys_addTo (distinct : (fields.map Prod.fst).Nodup) :
    ((c.addTo fields).map Prod.fst).Nodup := by
  cases c with
  | own => exact nodup_keys_insertPair distinct
  | merged => exact nodup_keys_mergeFields distinct
  | nothing => exact distinct

/-- A step that puts nothing under a key lets stay what is there, if completing does. -/
theorem lookup_addTo {motive : Schema → Prop} {k : String}
    (completed : ∀ field other, motive field → motive (complete field other))
    (apart : c.ownKey? ≠ some k) (h : ∃ field, fields.lookup k = some field ∧ motive field) :
    ∃ field, (c.addTo fields).lookup k = some field ∧ motive field := by
  cases c with
  | own key other =>
    have ne : k ≠ key := fun he => apart (congrArg some he.symm)
    obtain ⟨field, hlookup, hfield⟩ := h
    exact ⟨field, (lookup_insertPair_of_ne ne other fields).trans hlookup, hfield⟩
  | merged => exact lookup_mergeFields completed h
  | nothing => exact h

/-! ### All steps -/

/-- The fields after all steps. -/
def run (fields : List (String × Schema)) (cs : List Contribution) : List (String × Schema) :=
  cs.foldl addTo fields

theorem run_cons (c : Contribution) (cs : List Contribution) :
    run fields (c :: cs) = run (c.addTo fields) cs := rfl

theorem run_append (cs more : List Contribution) :
    run fields (cs ++ more) = run (run fields cs) more := List.foldl_append

/-- **The keys after all steps** are those that are given. -/
theorem mem_keys_run_map_iff {α : Type} {contribution : α → Contribution} {as : List α}
    {k : String} :
    k ∈ (run fields (as.map contribution)).map Prod.fst ↔
      k ∈ fields.map Prod.fst ∨ ∃ a ∈ as, k ∈ (contribution a).keys := by
  induction as generalizing fields with
  | nil => simp [run]
  | cons a as ih =>
    rw [List.map_cons, run_cons, ih, mem_keys_addTo_iff, or_assoc]
    simp

theorem nodup_keys_run (distinct : (fields.map Prod.fst).Nodup) :
    ((run fields cs).map Prod.fst).Nodup := by
  induction cs generalizing fields with
  | nil => exact distinct
  | cons c cs ih => exact ih (nodup_keys_addTo distinct)

theorem lookup_run {motive : Schema → Prop} {k : String}
    (completed : ∀ field other, motive field → motive (complete field other))
    (apart : ∀ c ∈ cs, c.ownKey? ≠ some k)
    (h : ∃ field, fields.lookup k = some field ∧ motive field) :
    ∃ field, (run fields cs).lookup k = some field ∧ motive field := by
  induction cs generalizing fields with
  | nil => exact h
  | cons c cs ih =>
    obtain ⟨here, behind⟩ := List.forall_mem_cons.mp apart
    exact ih behind (lookup_addTo completed here h)

/-- **The last field under a key counts**, whatever is merged before and behind it. -/
theorem lookup_run_of_last {motive : Schema → Prop} {before after : List Contribution}
    {key : String} {field : Schema}
    (completed : ∀ field other, motive field → motive (complete field other))
    (last : ∀ c ∈ after, c.ownKey? ≠ some key) (written : motive field) :
    ∃ left, (run fields (before ++ own key field :: after)).lookup key = some left ∧
      motive left := by
  rw [run_append, run_cons]
  exact lookup_run completed last ⟨field, lookup_insertPair_self key field _, written⟩

/-- A step that does nothing may be left out. -/
theorem run_of_nothing (before after : List Contribution) :
    run fields (before ++ nothing :: after) = run fields (before ++ after) := by
  rw [run_append, run_cons, run_append]
  rfl

end Contribution
end Schema
end RouteBook
