import RouteBook.Schema.Fields
/-! # Well-formed schemas

A schema is *well formed* under a key if every node of it says what its place in the tree asks for:
it is available, it carries the key under which its object keeps it (the root carries the key
given, an element of an array none), and it has a fallback value only if it is a scalar.

Every operation that descriptions are made with keeps schemas well formed: an edit of the root's
label that leaves its availability alone (`WellFormed.mapLabel`), adding a field
(`WellFormed.addField`) and merging two objects (`WellFormed.merge`).
-/
namespace RouteBook
namespace Schema

/-- **Well-formed schemas**, as nodes that carry the key `key`. -/
inductive WellFormed : Option String → Schema → Prop
  | primitive {key : Option String} {label : Label} {sample : Json}
      (available : label.isAvailable = true) (hkey : label.key = key) :
      WellFormed key (.primitive label sample)
  | text {key : Option String} {label : Label} {sample : String}
      (available : label.isAvailable = true) (hkey : label.key = key) :
      WellFormed key (.text label sample)
  | array {key : Option String} {label : Label} {element : Schema}
      (available : label.isAvailable = true) (hkey : label.key = key)
      (noFallback : label.fallback = none) (helement : WellFormed none element) :
      WellFormed key (.array label element)
  | object {key : Option String} {label : Label} {isRecursive : Bool}
      {fields : List (String × Schema)}
      (available : label.isAvailable = true) (hkey : label.key = key)
      (noFallback : label.fallback = none)
      (hfields : ∀ f ∈ fields, WellFormed (some f.1) f.2) :
      WellFormed key (.object label isRecursive fields)

variable {key : Option String} {s other : Schema}

/-! ### What a well-formed node says -/

theorem WellFormed.isAvailable (h : WellFormed key s) : s.label.isAvailable = true := by
  cases h <;> assumption

theorem WellFormed.key_eq (h : WellFormed key s) : s.label.key = key := by
  cases h <;> assumption

/-- Only scalars have fallback values. -/
theorem WellFormed.fallback_eq_none (h : WellFormed key s) (hs : s.isScalar = false) :
    s.label.fallback = none := by
  cases h with
  | primitive | text => cases hs
  | array _ _ noFallback _ => exact noFallback
  | object _ _ noFallback _ => exact noFallback

theorem WellFormed.fields {label : Label} {isRecursive : Bool} {fields : List (String × Schema)}
    (h : WellFormed key (.object label isRecursive fields)) :
    ∀ f ∈ fields, WellFormed (some f.1) f.2 := by
  cases h with
  | object _ _ _ hfields => exact hfields

/-! ### Edits of the root -/

/-- A new label at the root keeps a schema well formed if it is available, has the key asked for,
and brings no fallback value to an array or an object. -/
theorem WellFormed.mapLabel {newKey : Option String} {f : Label → Label} (h : WellFormed key s)
    (available : (f s.label).isAvailable = true) (hkey : (f s.label).key = newKey)
    (noFallback : s.isScalar = false → (f s.label).fallback = none) :
    WellFormed newKey (s.mapLabel f) := by
  cases h with
  | primitive => exact .primitive available hkey
  | text => exact .text available hkey
  | array _ _ _ helement => exact .array available hkey (noFallback rfl) helement
  | object _ _ _ hfields => exact .object available hkey (noFallback rfl) hfields

theorem WellFormed.withKey (h : WellFormed key s) (newKey : String) :
    WellFormed (some newKey) (s.withKey newKey) :=
  h.mapLabel h.isAvailable rfl h.fallback_eq_none

theorem WellFormed.withRequired (h : WellFormed key s) (required : Bool) :
    WellFormed key (s.withRequired required) :=
  h.mapLabel h.isAvailable h.key_eq h.fallback_eq_none

theorem WellFormed.addRemark (h : WellFormed key s) (remark : String) :
    WellFormed key (s.addRemark remark) := by
  obtain ⟨after, he⟩ := Label.addRemark_eq s.label remark
  refine h.mapLabel ?_ ?_ ?_
  · rw [he]; exact h.isAvailable
  · rw [he]; exact h.key_eq
  · rw [he]; exact h.fallback_eq_none

theorem WellFormed.setFallback (h : WellFormed key s) (written : String) :
    WellFormed key (s.setFallback written) := by
  cases h with
  | primitive available hkey => exact .primitive available hkey
  | text available hkey => exact .text available hkey
  | array available hkey noFallback helement =>
    exact .array available hkey noFallback helement
  | object available hkey noFallback hfields =>
    exact .object available hkey noFallback hfields

/-! ### Making schemas -/

theorem wellFormed_ofPrimitive (type : String) (sample : Json) :
    WellFormed none (ofPrimitive type sample) := .primitive rfl rfl

theorem wellFormed_ofText (type sample : String) : WellFormed none (ofText type sample) :=
  .text rfl rfl

theorem wellFormed_emptyObject (type : String) : WellFormed none (emptyObject type) :=
  .object rfl rfl rfl fun _ h => absurd h List.not_mem_nil

theorem wellFormed_recursive (type : String) : WellFormed none (recursive type) :=
  .object rfl rfl rfl fun _ h => absurd h List.not_mem_nil

theorem WellFormed.ofElement (h : WellFormed none s) : WellFormed none (ofElement s) :=
  .array rfl rfl rfl h

/-! ### Fields -/

/-- A field goes into an object under its own key; anything else but an object stays as it is. -/
theorem WellFormed.addField {fieldKey : String} (h : WellFormed key s)
    (hfield : WellFormed (some fieldKey) other) : WellFormed key (s.addField other) := by
  cases h with
  | object available hkey noFallback hfields =>
    unfold Schema.addField
    rw [hfield.key_eq]
    exact .object available hkey noFallback (forall_insertPair hfields hfield)
  | primitive available hkey => exact .primitive available hkey
  | text available hkey => exact .text available hkey
  | array available hkey noFallback helement =>
    exact .array available hkey noFallback helement

/-- A field of which another description fills in what is open keeps its place, and it gets a
fallback value only if it is a scalar. -/
theorem WellFormed.complete (h : WellFormed key s) : WellFormed key (complete s other) := by
  unfold Schema.complete
  refine h.mapLabel h.isAvailable h.key_eq fun hs => ?_
  simpa [hs] using h.fallback_eq_none hs

theorem WellFormed.merge {otherKey : Option String} (h : WellFormed key s)
    (hother : WellFormed otherKey other) : WellFormed key (s.merge other) := by
  unfold Schema.merge
  split
  · cases h with
    | object available hkey noFallback hfields =>
      refine .object available hkey noFallback ?_
      exact forall_mergeFields (motive := fun f => WellFormed (some f.1) f.2)
        (fun _ _ _ hfield _ => hfield.complete) hfields hother.fields
  · exact h

end Schema
end RouteBook
