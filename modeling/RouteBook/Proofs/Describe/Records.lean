import RouteBook.Proofs.Describe.Run
import RouteBook.Proofs.Schema.Contributions
import RouteBook.Proofs.Schema.Places
/-! # The fields of structures

What the description of a structure has under which key (`Chain.fields_of_record`).  A field of the
structure does one of three things to the object.  It is put under its own key (`Declared.IsOwn`)
and replaces what is there; or it is flattened (`Declared.IsFlattened`), and the fields of its object
are merged, which lets stay what is there; or it leaves no trace (`Declared.IsOmitted`).

So each field of the structure is one step on the list of fields of the object (`Declared.withField`),
and the whole description is the run of these steps (`Declared.value_addFields`).  What the steps of
such a run come to is known (`Schema.Contribution`): a key is there iff some field gives it, and what
the last own field under a key puts there is never replaced, but for the remark and the fallback value
at its root, which can still be filled in (`Declared.Describes`).
-/
namespace RouteBook
namespace Declared
open Schema

/-! ### Kinds of fields -/

/-- What the chain says about the type of a field of a structure. -/
def part (inner : TypeTerm → Logged Schema) (r : RecordShape) (t : TypeTerm) (f : FieldShape) :
    Schema :=
  (inner (f.type.substitute (bindings r t))).value

section Kinds

variable (part : FieldShape → Schema) (f : FieldShape)

/-- A field that stands under its own key. -/
structure IsOwn : Prop where
  kept : f.rules.skip = false
  own : f.rules.flatten = false
  available : (part f).isAvailable = true

/-- A field whose fields take its place. -/
structure IsFlattened : Prop where
  kept : f.rules.skip = false
  flattened : f.rules.flatten = true
  available : (part f).isAvailable = true
  isObject : (part f).isObject = true

/-- A field that is skipped, is of an unknown type, or is flattened without having fields. -/
def IsOmitted : Prop :=
  f.rules.skip = true ∨ (part f).isAvailable = false ∨
    f.rules.flatten = true ∧ (part f).isObject = false

theorem kinds : IsOwn part f ∨ IsFlattened part f ∨ IsOmitted part f := by
  cases kept : f.rules.skip with
  | true => exact .inr (.inr (.inl kept))
  | false =>
    cases available : (part f).isAvailable with
    | false => exact .inr (.inr (.inr (.inl available)))
    | true =>
      cases flattened : f.rules.flatten with
      | false => exact .inl ⟨kept, flattened, available⟩
      | true =>
        cases isObject : (part f).isObject with
        | true => exact .inr (.inl ⟨kept, flattened, available, isObject⟩)
        | false => exact .inr (.inr (.inr (.inr ⟨flattened, isObject⟩)))

/-- **The keys that a field gives to the object.** -/
inductive Gives : String → Prop
  | own (h : IsOwn part f) : Gives f.key
  | flattened {k : String} (h : IsFlattened part f) (hk : k ∈ (part f).fieldKeys) : Gives k

end Kinds

/-! ### What the declaration says about a field -/

/-- **The description of an own field**, where `s` is that of its type: it has the key of the field,
and it is required if the type is and the field is without a default.  Its remark and its fallback
value are left open. -/
def Describes (f : FieldShape) (s field : Schema) : Prop :=
  ∃ remark fallback, field = s.mapLabel fun label =>
    { label with
      key := some f.key
      required := !f.rules.default && label.required
      remark := remark
      fallback := fallback }

theorem describes_applyField (f : FieldShape) (s : Schema) : Describes f s (applyField f s) := by
  have keyed : Restates (some f.key) (fun required => !f.rules.default && required) s
      (if f.rules.default then (s.withKey f.key).withRequired false else s.withKey f.key) := by
    cases f.rules.default with
    | true => exact ((restates_self s).withKey f.key).withRequired false
    | false => exact (restates_self s).withKey f.key
  unfold applyField
  cases f.remark with
  | none =>
    cases f.fallback with
    | none => exact keyed
    | some written => exact keyed.setFallback written
  | some remark =>
    have noted := keyed.addRemark remark
    cases f.fallback with
    | none => exact noted
    | some written => exact noted.setFallback written

/-! ### One field -/

/-- The fields of the object after one more field of the structure. -/
def withField (part : FieldShape → Schema) (fields : List (String × Schema)) (f : FieldShape) :
    List (String × Schema) :=
  if f.rules.skip || !(part f).isAvailable then fields
  else if f.rules.flatten then mergeFields fields ((part f).fields?.getD [])
  else insertPair f.key (applyField f (part f)) fields

/-- The same step, as what it contributes. -/
def contribution (part : FieldShape → Schema) (f : FieldShape) : Contribution :=
  if f.rules.skip || !(part f).isAvailable then .nothing
  else if f.rules.flatten then
    match (part f).fields? with
    | some others => .merged others
    | none => .nothing
  else .own f.key (applyField f (part f))

section Steps

variable {part : FieldShape → Schema} {f : FieldShape} {fields : List (String × Schema)}

theorem withField_eq (part : FieldShape → Schema) (fields : List (String × Schema))
    (f : FieldShape) : withField part fields f = (contribution part f).addTo fields := by
  unfold withField contribution
  split
  · rfl
  · split
    · cases (part f).fields? <;> rfl
    · rfl

theorem contribution_of_own (h : IsOwn part f) :
    contribution part f = .own f.key (applyField f (part f)) := by
  simp [contribution, h.kept, h.own, h.available]

theorem contribution_of_flattened (h : IsFlattened part f) :
    contribution part f = .merged ((part f).fields?.getD []) := by
  obtain ⟨others, given⟩ := exists_fields?_of_isObject h.isObject
  simp [contribution, h.kept, h.flattened, h.available, given]

theorem contribution_of_omitted (h : IsOmitted part f) : contribution part f = .nothing := by
  unfold contribution
  rcases h with skipped | unavailable | ⟨flattened, noObject⟩
  · simp [skipped]
  · simp [unavailable]
  · simp [flattened, fields?_eq_none noObject]

/-- A field gives the keys of what it contributes. -/
theorem mem_keys_contribution_iff {k : String} :
    k ∈ (contribution part f).keys ↔ Gives part f k := by
  rcases kinds part f with own | flattened | omitted
  · rw [contribution_of_own own, Contribution.keys, List.mem_singleton]
    constructor
    · rintro rfl
      exact .own own
    · rintro (_ | ⟨flattened, -⟩)
      · rfl
      · cases own.own.symm.trans flattened.flattened
  · have keys : ((part f).fields?.getD []).map Prod.fst = (part f).fieldKeys := by
      cases part f <;> rfl
    rw [contribution_of_flattened flattened, Contribution.keys, keys]
    constructor
    · exact .flattened flattened
    · rintro (own | ⟨-, hk⟩)
      · cases own.own.symm.trans flattened.flattened
      · exact hk
  · rw [contribution_of_omitted omitted]
    constructor
    · exact fun hk => absurd hk List.not_mem_nil
    · rintro (own | ⟨flattened, -⟩)
      · rcases omitted with skipped | unavailable | ⟨flattened, -⟩
        · cases own.kept.symm.trans skipped
        · cases own.available.symm.trans unavailable
        · cases own.own.symm.trans flattened
      · rcases omitted with skipped | unavailable | ⟨-, noObject⟩
        · cases flattened.kept.symm.trans skipped
        · cases flattened.available.symm.trans unavailable
        · cases flattened.isObject.symm.trans noObject

/-- Only own fields replace something. -/
theorem isOwn_of_ownKey? {k : String} (h : (contribution part f).ownKey? = some k) :
    IsOwn part f ∧ f.key = k := by
  rcases kinds part f with own | flattened | omitted
  · rw [contribution_of_own own] at h
    exact ⟨own, Option.some.inj h⟩
  · rw [contribution_of_flattened flattened] at h
    cases h
  · rw [contribution_of_omitted omitted] at h
    cases h

end Steps

/-! ### All fields -/

section Run

variable {part : FieldShape → Schema} {fields : List (String × Schema)} {fs : List FieldShape}

theorem foldl_withField_eq (part : FieldShape → Schema) (fields : List (String × Schema))
    (fs : List FieldShape) :
    fs.foldl (withField part) fields = Contribution.run fields (fs.map (contribution part)) := by
  rw [Contribution.run, List.foldl_map]
  exact congrArg (List.foldl · fields fs)
    (funext fun fields => funext fun f => withField_eq part fields f)

theorem mem_keys_foldl_withField_iff {k : String} :
    k ∈ (fs.foldl (withField part) fields).map Prod.fst ↔
      k ∈ fields.map Prod.fst ∨ ∃ f ∈ fs, Gives part f k := by
  rw [foldl_withField_eq, Contribution.mem_keys_run_map_iff]
  simp only [mem_keys_contribution_iff]

/-- **The last own field under a key counts**, whatever is flattened before and after it. -/
theorem lookup_of_last_own {before after : List FieldShape} {f : FieldShape} (own : IsOwn part f)
    (last : ∀ g ∈ after, IsOwn part g → g.key ≠ f.key) :
    ∃ field, ((before ++ f :: after).foldl (withField part) fields).lookup f.key = some field ∧
      Describes f (part f) field := by
  rw [foldl_withField_eq, List.map_append, List.map_cons, contribution_of_own own]
  apply Contribution.lookup_run_of_last
  · exact fun _ other hfield => Restates.complete hfield other
  · intro c hc
    obtain ⟨g, hg, rfl⟩ := List.mem_map.mp hc
    intro same
    obtain ⟨ownAfter, key⟩ := isOwn_of_ownKey? same
    exact last g hg ownAfter key
  · exact describes_applyField f (part f)

/-- An omitted field makes no difference. -/
theorem foldl_withField_of_omitted {before after : List FieldShape} {f : FieldShape}
    (omitted : IsOmitted part f) :
    (before ++ f :: after).foldl (withField part) fields =
      (before ++ after).foldl (withField part) fields := by
  rw [foldl_withField_eq, foldl_withField_eq, List.map_append, List.map_cons,
    contribution_of_omitted omitted, Contribution.run_of_nothing, List.map_append]

end Run

variable {inner : TypeTerm → Logged Schema} {r : RecordShape} {t : TypeTerm}

theorem value_addField (label : Label) (isRecursive : Bool) (fields : List (String × Schema))
    (f : FieldShape) :
    (addField inner r t (.object label isRecursive fields) f).value =
      .object label isRecursive (withField (part inner r t) fields f) := by
  have hpart : (inner (f.type.substitute (bindings r t))).value = part inner r t f := rfl
  have key : (applyField f (part inner r t f)).label.key = some f.key :=
    Restates.key_eq (describes_applyField f (part inner r t f))
  unfold addField withField
  cases f.rules.skip with
  | true => rfl
  | false =>
    cases available : (part inner r t f).isAvailable with
    | false => simp [hpart, available]
    | true =>
      cases f.rules.flatten with
      | true => simp [hpart, available, merge_object]
      | false => simp [hpart, available, addField_object key]

/-- **The walk over the fields of a structure** is the run of its steps. -/
theorem value_addFields (label : Label) (isRecursive : Bool) (fields : List (String × Schema))
    (fs : List FieldShape) :
    (addFields inner r t (.object label isRecursive fields) fs).value =
      .object label isRecursive (fs.foldl (withField (part inner r t)) fields) := by
  induction fs generalizing fields with
  | nil => rfl
  | cons f fs ih =>
    rw [addFields, Logged.value_bind, value_addField, ih, List.foldl_cons]

end Declared

namespace Chain
open Declared

/-- If no resolver has an answer, the description is what the declaration gives. -/
theorem value_of_counts {chain : Chain} {index : TypeIndex} {levels : Nat}
    {expanding : List String} {t : TypeTerm}
    (counts : chain.DeclarationCounts index levels expanding t) :
    (chain.resolveAt index (levels + 1) expanding t).value =
      (Declared.resolve index expanding (chain.resolveAt index levels (t.text :: expanding))
        t).value := by
  rcases Resolver.first_cases
      (fun _ t => Declared.resolve index expanding
        (chain.resolveAt index levels (t.text :: expanding)) t)
      (chain.scopeAt index levels expanding) t chain.resolvers
    with ⟨r, hr, available, -⟩ | ⟨-, he⟩
  · cases available.symm.trans (counts r hr)
  · exact he

/-- **The fields of a structure.**  Let a structure be described by its declaration, and not be the
marker for one that is being described already.  Then the description is an object, and each key is
in it once: the keys of the own fields of the structure and those of the objects that are flattened.
What stands under the key of an own field is what the last own field with that key declares.  And an
omitted field makes no difference: without it, the description is the same. -/
theorem fields_of_record (chain : Chain) (index : TypeIndex) (levels : Nat)
    (expanding : List String) (t : TypeTerm) (r : RecordShape)
    (counts : chain.DeclarationCounts index levels expanding t)
    (declared : index.find? t.name = some (.record r)) (new : t.text ∉ expanding) :
    let inner := chain.resolveAt index levels (t.text :: expanding)
    let part := part inner r t
    ∃ fields,
      (chain.resolveAt index (levels + 1) expanding t).value =
        .object (Label.ofType t.text) false fields ∧
      (fields.map Prod.fst).Nodup ∧
      (∀ key, key ∈ fields.map Prod.fst ↔ ∃ f ∈ r.fields, Gives part f key) ∧
      (∀ before f after, r.fields = before ++ f :: after → IsOwn part f →
        (∀ g ∈ after, IsOwn part g → g.key ≠ f.key) →
          ∃ field, fields.lookup f.key = some field ∧ Describes f (part f) field) ∧
      (∀ before f after, r.fields = before ++ f :: after → IsOmitted part f →
        (addFields inner { r with fields := before ++ after } t (.emptyObject t.text)
          (before ++ after)).value = .object (Label.ofType t.text) false fields) := by
  intro inner part
  have walk : ∀ fs, (addFields inner { r with fields := fs } t (.emptyObject t.text) fs).value =
      .object (Label.ofType t.text) false (fs.foldl (withField part) []) :=
    fun fs => value_addFields (Label.ofType t.text) false [] fs
  refine ⟨r.fields.foldl (withField part) [], ?_, ?_, ?_, ?_, ?_⟩
  · rw [value_of_counts counts, Declared.resolve]
    simp only [declared, List.contains_eq_mem, new, decide_false, Bool.false_eq_true, if_false]
    exact walk r.fields
  · rw [foldl_withField_eq]
    exact Schema.Contribution.nodup_keys_run List.nodup_nil
  · intro key
    rw [mem_keys_foldl_withField_iff]
    simp
  · intro before f after split own last
    rw [split]
    exact lookup_of_last_own own last
  · intro before f after split omitted
    rw [walk, split, foldl_withField_of_omitted omitted]

/-- Entries of a log.  The label takes the place of the number, though a stamp stands between. -/
def entry : RecordShape where
  name := "Entry"
  generics := ["T"]
  fields :=
    [⟨"id", .named "T", .none, none, none⟩,
      ⟨"stamp", .named "Stamp", { FieldRules.none with flatten := true }, none, none⟩,
      ⟨"origin", .named "String", { FieldRules.none with flatten := true }, none, none⟩,
      ⟨"label", .named "String", { FieldRules.none with rename := some "id", default := true },
        some "new", none⟩]

def entryIndex : TypeIndex where
  shapes :=
    [("Entry", .record entry),
      ("Stamp", .record ⟨"Stamp", [],
        [⟨"id", .named "bool", .none, none, some "of the clock"⟩,
          ⟨"at", .named "u64", .none, none, none⟩]⟩)]

/-- In an entry, the stamp gives the time, and the label is what stands under the key of the number. -/
theorem fields_of_entry :
    ∃ fields field,
      (standard.resolve entryIndex (.applied "Entry" [.named "u32"])).value =
        .object (Label.ofType "Entry<u32>") false fields ∧
      "at" ∈ fields.map Prod.fst ∧ fields.lookup "id" = some field ∧
      field.label.type = "String" ∧ field.label.required = false := by
  have counts : standard.DeclarationCounts entryIndex (maxNesting - 1) []
      (.applied "Entry" [.named "u32"]) := by
    unfold DeclarationCounts Resolver.AllUnknown
    decide +kernel
  obtain ⟨fields, he, -, keys, own, -⟩ := fields_of_record standard entryIndex (maxNesting - 1) []
    (.applied "Entry" [.named "u32"]) entry counts rfl List.not_mem_nil
  obtain ⟨field, hlookup, remark, fallback, rfl⟩ := own (entry.fields.take 3) _ [] rfl
    ⟨rfl, rfl, rfl⟩ fun _ h => absurd h List.not_mem_nil
  refine ⟨fields, _, he, ?_, hlookup, ?_, ?_⟩
  · rw [keys]
    refine ⟨_, List.mem_cons_of_mem _ List.mem_cons_self, .flattened ⟨rfl, rfl, rfl, rfl⟩ ?_⟩
    decide +kernel
  · rfl
  · rfl

end Chain
end RouteBook
