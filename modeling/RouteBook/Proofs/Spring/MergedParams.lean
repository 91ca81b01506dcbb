import RouteBook.Proofs.Schema.Contributions
import RouteBook.Proofs.Schema.Places
import RouteBook.Proofs.Spring.Unresolved
/-! # The object of the request parameters

What the object of all request parameters has under which key (`fields_of_mergedParams`).  A parameter
that is no object stands under the name that clients know it by (`IsNamed`), and replaces what is
there.  An object has no key of its own: its fields are merged (`IsSpread`), whether the parameter has
a name or not.  A parameter of an unknown type is left out, and so is one with neither fields nor a
name (`IsLeftOut`).

These are the steps by which an object is filled (`Schema.Contribution`), so the last parameter with a
name decides what stands under it, wherever the objects come in between.
-/
namespace RouteBook
namespace Spring
open Schema

/-! ### Kinds of parameters -/

section Kinds

variable (types : Types) (p : HandlerParam)

/-- A parameter that stands under the name that clients know it by. -/
structure IsNamed (key : String) : Prop where
  available : (types.resolve p.type).value.isAvailable = true
  noObject : (types.resolve p.type).value.isObject = false
  named : clientName? p requestParam = some key

/-- A parameter whose fields take its place. -/
structure IsSpread : Prop where
  available : (types.resolve p.type).value.isAvailable = true
  isObject : (types.resolve p.type).value.isObject = true

/-- A parameter of an unknown type, or without fields and without a name. -/
def IsLeftOut : Prop :=
  (types.resolve p.type).value.isAvailable = false ∨
    (types.resolve p.type).value.isObject = false ∧ clientName? p requestParam = none

theorem paramKinds : (∃ key, IsNamed types p key) ∨ IsSpread types p ∨ IsLeftOut types p := by
  cases available : (types.resolve p.type).value.isAvailable with
  | false => exact .inr (.inr (.inl available))
  | true =>
    cases isObject : (types.resolve p.type).value.isObject with
    | true => exact .inr (.inl ⟨available, isObject⟩)
    | false =>
      cases named : clientName? p requestParam with
      | none => exact .inr (.inr (.inr ⟨isObject, named⟩))
      | some key => exact .inl ⟨key, available, isObject, named⟩

/-- **The keys that a parameter gives to the object.** -/
inductive GivesKey : String → Prop
  | named {key} (h : IsNamed types p key) : GivesKey key
  | spread {key} (h : IsSpread types p) (hk : key ∈ (types.resolve p.type).value.fieldKeys) :
      GivesKey key

end Kinds

/-! ### What a parameter says about its type -/

/-- Whether a parameter is required: its marker may say so in place of its type. -/
def saysRequired (p : HandlerParam) (required : Bool) : Bool :=
  ((Marker.find? p.markers requestParam).bind (·.bool? ["required"])).getD required

theorem restates_applyRequired (p : HandlerParam) (s : Schema) :
    Restates s.label.key (saysRequired p) s (applyRequired p s) := by
  unfold applyRequired saysRequired
  cases (Marker.find? p.markers requestParam).bind (·.bool? ["required"]) with
  | none => exact restates_self s
  | some required => exact (restates_self s).withRequired required

/-- **The field of a parameter** restates the type under the name of the parameter. -/
theorem restates_paramField (e : Endpoint) (p : HandlerParam) (key : String) (s : Schema) :
    Restates (some key) (saysRequired p) s (paramField e p key (applyRequired p s)) := by
  have said := restates_applyRequired p s
  unfold paramField
  cases paramRemark? e p key with
  | none =>
    cases (Marker.find? p.markers requestParam).bind (·.text? ["default_value"]) with
    | none => exact said.withKey key
    | some written => exact (said.setFallback written).withKey key
  | some remark =>
    have noted := said.addRemark remark
    cases (Marker.find? p.markers requestParam).bind (·.text? ["default_value"]) with
    | none => exact noted.withKey key
    | some written => exact (noted.setFallback written).withKey key

/-- What the marker says about being required makes no difference to the fields. -/
theorem fields?_applyRequired (p : HandlerParam) (s : Schema) :
    (applyRequired p s).fields? = s.fields? := by
  obtain ⟨remark, fallback, he⟩ := restates_applyRequired p s
  rw [he]
  cases s <;> rfl

/-! ### One parameter -/

/-- What a parameter puts into the object. -/
def paramContribution (types : Types) (e : Endpoint) (p : HandlerParam) : Contribution :=
  let s := (types.resolve p.type).value
  if !s.isAvailable then .nothing
  else
    match s.fields?, clientName? p requestParam with
    | some others, _ => .merged others
    | none, some key => .own key (paramField e p key (applyRequired p s))
    | none, none => .nothing

section Steps

variable {types : Types} {e : Endpoint} {p : HandlerParam}

theorem paramContribution_of_named {key : String} (h : IsNamed types p key) :
    paramContribution types e p =
      .own key (paramField e p key (applyRequired p (types.resolve p.type).value)) := by
  simp [paramContribution, h.available, fields?_eq_none h.noObject, h.named]

theorem paramContribution_of_spread (h : IsSpread types p) :
    paramContribution types e p = .merged ((types.resolve p.type).value.fields?.getD []) := by
  obtain ⟨fields, given⟩ := exists_fields?_of_isObject h.isObject
  simp [paramContribution, h.available, given]

theorem paramContribution_of_leftOut (h : IsLeftOut types p) :
    paramContribution types e p = .nothing := by
  rcases h with unavailable | ⟨noObject, nameless⟩
  · simp [paramContribution, unavailable]
  · simp [paramContribution, fields?_eq_none noObject, nameless]

/-- A parameter gives the keys of what it contributes. -/
theorem mem_keys_paramContribution_iff {key : String} :
    key ∈ (paramContribution types e p).keys ↔ GivesKey types p key := by
  rcases paramKinds types p with ⟨name, named⟩ | spread | leftOut
  · rw [paramContribution_of_named named, Contribution.keys, List.mem_singleton]
    constructor
    · rintro rfl
      exact .named named
    · rintro (other | ⟨spread, -⟩)
      · exact Option.some.inj (other.named.symm.trans named.named)
      · cases spread.isObject.symm.trans named.noObject
  · have keys : ((types.resolve p.type).value.fields?.getD []).map Prod.fst =
        (types.resolve p.type).value.fieldKeys := by
      cases (types.resolve p.type).value <;> rfl
    rw [paramContribution_of_spread spread, Contribution.keys, keys]
    constructor
    · exact .spread spread
    · rintro (named | ⟨-, hk⟩)
      · cases spread.isObject.symm.trans named.noObject
      · exact hk
  · rw [paramContribution_of_leftOut leftOut]
    constructor
    · exact fun hk => absurd hk List.not_mem_nil
    · rintro (named | ⟨spread, -⟩)
      · rcases leftOut with unavailable | ⟨-, nameless⟩
        · cases named.available.symm.trans unavailable
        · cases named.named.symm.trans nameless
      · rcases leftOut with unavailable | ⟨noObject, -⟩
        · cases spread.available.symm.trans unavailable
        · cases spread.isObject.symm.trans noObject

/-- Only what stands under its own name replaces something. -/
theorem isNamed_of_ownKey? {key : String}
    (h : (paramContribution types e p).ownKey? = some key) : IsNamed types p key := by
  rcases paramKinds types p with ⟨name, named⟩ | spread | leftOut
  · rw [paramContribution_of_named named] at h
    obtain rfl := Option.some.inj h
    exact named
  · rw [paramContribution_of_spread spread] at h
    cases h
  · rw [paramContribution_of_leftOut leftOut] at h
    cases h

end Steps

/-- **One more parameter** is one more step in filling the object. -/
theorem value_mergeParam (types : Types) (h : Handler) (e : Endpoint) (p : HandlerParam)
    (label : Label) (isRecursive : Bool) (fields : List (String × Schema)) :
    (mergeParam types h e (.object label isRecursive fields) p).value =
      .object label isRecursive ((paramContribution types e p).addTo fields) := by
  unfold mergeParam paramContribution
  rw [Logged.value_bind]
  generalize (types.resolve p.type).value = s
  dsimp only
  cases s.isAvailable with
  | false => rfl
  | true =>
    have same := fields?_applyRequired p s
    cases isObject : (applyRequired p s).isObject with
    | true =>
      obtain ⟨others, given⟩ := exists_fields?_of_isObject isObject
      rw [← same, given]
      simp [merge_object, given, Contribution.addTo]
    | false =>
      rw [← same, fields?_eq_none isObject]
      cases clientName? p requestParam with
      | none => simp [Contribution.addTo]
      | some key =>
        have keyed := (restates_paramField e p key s).key_eq
        simp [addField_object keyed, Contribution.addTo]

/-! ### All parameters -/

theorem value_foldlM_mergeParam (types : Types) (h : Handler) (e : Endpoint)
    (ps : List HandlerParam) (label : Label) (isRecursive : Bool)
    (fields : List (String × Schema)) :
    (ps.foldlM (mergeParam types h e) (.object label isRecursive fields)).value =
      .object label isRecursive (Contribution.run fields (ps.map (paramContribution types e))) := by
  rw [Logged.value_foldlM]
  induction ps generalizing fields with
  | nil => rfl
  | cons p ps ih => rw [List.foldl_cons, value_mergeParam, ih, List.map_cons, Contribution.run_cons]

/-- **The object of all parameters** is the run of their steps. -/
theorem value_mergedParams (types : Types) (h : Handler) (e : Endpoint) :
    (mergedParams types h e).value = .object (Label.ofType "") false
      (Contribution.run [] ((h.params.filter isRequestParam).map (paramContribution types e))) :=
  value_foldlM_mergeParam types h e (h.params.filter isRequestParam) (Label.ofType "") false []

/-- A parameter that is left out makes no difference. -/
theorem value_mergedParams_of_leftOut {types : Types} {before after : List HandlerParam}
    {p : HandlerParam} (leftOut : IsLeftOut types p) (h : Handler) (e : Endpoint) :
    (mergedParams types (h.withParams (before ++ p :: after)) e).value =
      (mergedParams types (h.withParams (before ++ after)) e).value := by
  rw [value_mergedParams, value_mergedParams]
  dsimp only [Handler.withParams]
  cases request : isRequestParam p with
  | false => rw [filter_of_not request]
  | true =>
    rw [List.filter_append, List.filter_cons_of_pos request, List.map_append, List.map_cons,
      paramContribution_of_leftOut leftOut, Contribution.run_of_nothing, ← List.map_append,
      ← List.filter_append]

/-- **The object of the request parameters.**  It is an object with each key in it once: the names of
the parameters that are no objects and have one, and the keys of the fields of those that are objects.
What stands under the name of a parameter that is no object is what the last such parameter with the
name says: it restates its type, and is required as its marker says or, if that says nothing, as the
type is.  And a parameter that is of an unknown type, or has neither fields nor a name, makes no
difference: without it, the object is the same. -/
theorem fields_of_mergedParams (types : Types) (h : Handler) (e : Endpoint) :
    ∃ fields,
      (mergedParams types h e).value = .object (Label.ofType "") false fields ∧
      (fields.map Prod.fst).Nodup ∧
      (∀ key, key ∈ fields.map Prod.fst ↔
        ∃ p ∈ h.params, isRequestParam p = true ∧ GivesKey types p key) ∧
      (∀ before p after key, h.params = before ++ p :: after → isRequestParam p = true →
        IsNamed types p key →
        (∀ q ∈ after, isRequestParam q = true → ¬ IsNamed types q key) →
          ∃ field, fields.lookup key = some field ∧
            Restates (some key) (saysRequired p) (types.resolve p.type).value field) ∧
      (∀ before p after, h.params = before ++ p :: after → IsLeftOut types p →
        (mergedParams types (h.withParams (before ++ after)) e).value =
          .object (Label.ofType "") false fields) := by
  refine ⟨_, value_mergedParams types h e, ?_, ?_, ?_, ?_⟩
  · exact Contribution.nodup_keys_run List.nodup_nil
  · intro key
    rw [Contribution.mem_keys_run_map_iff]
    simp only [List.map_nil, List.not_mem_nil, false_or, List.mem_filter, and_assoc,
      mem_keys_paramContribution_iff]
  · intro before p after key split request named last
    rw [split, List.filter_append, List.filter_cons_of_pos request, List.map_append, List.map_cons,
      paramContribution_of_named named]
    apply Contribution.lookup_run_of_last
    · exact fun _ other said => said.complete other
    · intro c hc same
      obtain ⟨q, hq, rfl⟩ := List.mem_map.mp hc
      obtain ⟨hq, requestAfter⟩ := List.mem_filter.mp hq
      exact last q hq requestAfter (isNamed_of_ownKey? same)
    · exact restates_paramField e p key _
  · intro before p after split leftOut
    rw [← value_mergedParams, ← value_mergedParams_of_leftOut leftOut, ← split]
    rfl

/-- A search by a number, by a text of the same name, and within bounds that are taken apart. -/
def searchItems : Handler where
  name := "search"
  markers := [⟨"get_mapping", [(Marker.positional, .text "/items")]⟩]
  doc := .none
  params :=
    [⟨some "id", .named "u32", []⟩, ⟨none, .named "Bounds", []⟩,
      ⟨some "text", .named "String",
        [⟨requestParam, [("name", .text "id"), ("required", .bool false)]⟩]⟩,
      ⟨some "callback", .unknown, []⟩]
  returns := none

def boundTypes : Types where
  chain := chain
  index := ⟨[("Bounds", .record ⟨"Bounds", [],
    [⟨"id", .named "bool", .none, none, some "of the bounds"⟩,
      ⟨"size", .named "u32", .none, none, none⟩]⟩)]⟩

/-- The text is what is searched for, though it comes last, and the callback is left out. -/
theorem fields_of_searchItems :
    ∃ fields field,
      (mergedParams boundTypes searchItems (.new "search")).value =
        .object (Label.ofType "") false fields ∧
      "size" ∈ fields.map Prod.fst ∧ fields.lookup "id" = some field ∧
      field.label.type = "String" ∧ field.label.required = false ∧
      (mergedParams boundTypes (searchItems.withParams (searchItems.params.take 3))
        (.new "search")).value = .object (Label.ofType "") false fields := by
  obtain ⟨fields, he, -, keys, last, leftOut⟩ :=
    fields_of_mergedParams boundTypes searchItems (.new "search")
  have callback : IsLeftOut boundTypes ⟨some "callback", .unknown, []⟩ := by
    left
    decide +kernel
  obtain ⟨field, hlookup, remark, fallback, hfield⟩ :=
    last (searchItems.params.take 2) _ [⟨some "callback", .unknown, []⟩] "id" rfl
      (by decide +kernel) ⟨by decide +kernel, by decide +kernel, by decide +kernel⟩ (by
        intro q hq _ named
        rw [List.mem_singleton.mp hq] at named
        rcases callback with unavailable | ⟨-, nameless⟩
        · cases named.available.symm.trans unavailable
        · cases named.named.symm.trans nameless)
  refine ⟨fields, field, he, ?_, hlookup, ?_, ?_, ?_⟩
  · rw [keys]
    refine ⟨_, List.mem_cons_of_mem _ List.mem_cons_self, by decide +kernel, .spread ?_ ?_⟩
    · exact ⟨by decide +kernel, by decide +kernel⟩
    · decide +kernel
  · rw [hfield, label_mapLabel]
    dsimp only
    decide +kernel
  · rw [hfield, label_mapLabel]
    dsimp only
    decide +kernel
  · exact leftOut (searchItems.params.take 3) _ [] rfl callback

end Spring
end RouteBook
