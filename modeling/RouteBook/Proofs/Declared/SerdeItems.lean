import RouteBook.Declared.TypeIndex
import RouteBook.Proofs.Source.Literals
/-! # Items of `serde` attributes

What the attributes of a field or a variant say about it.  An item is a word, a name with a text, or a
name with arguments in parentheses (`WrittenItem`).  The items of an attribute are read one after
another, and reading stops at a `rename` with arguments (`SerdeItem.read_of_written`): what is behind
it in the same attribute is not heard (`WrittenItem.heard`).

What is heard counts whatever its order, but for the key of a field, which is the last one that is
given (`IsHonoured`).  So if nothing that says something stands behind a `rename` with arguments, then
all the items count, in any order (`FieldRules.items_honoured`).
-/
namespace RouteBook
open Source Parser

/-! ### Items as they are written -/

/-- The names of items that take no value. -/
def marks : List String := ["skip", "skip_deserializing", "flatten"]

/-- What stands behind the name of an item. -/
inductive ItemValue where
  | none
  | text (s : String)
  | list (content : List Token)

namespace ItemValue

def tokens : ItemValue → List Token
  | .none => []
  | .text s => [.punct '=' false, .literal (.text s)]
  | .list content => [.group .paren content]

/-- Whether a value may stand behind a name.  A key has to be said, for both directions or for each of
them, the marks take no value, and a default is one function at most. -/
def fits (name : String) : ItemValue → Bool
  | .none => name != "rename"
  | .text _ => !marks.contains name
  | .list _ => !marks.contains name && name != "default"

end ItemValue

/-- **An item as it is written**: `name`, `name = "text"` or `name(…)`. -/
structure WrittenItem where
  word : Word
  value : ItemValue
  valid : value.fits word.text = true

namespace WrittenItem

def name (i : WrittenItem) : String := i.word.text

def tokens (i : WrittenItem) : List Token := .ident i.word :: i.value.tokens

@[simp] def skips (i : WrittenItem) : Bool := i.name = "skip" || i.name = "skip_deserializing"

@[simp] def flattens (i : WrittenItem) : Bool := i.name = "flatten"

@[simp] def defaults (i : WrittenItem) : Bool := i.name = "default"

/-- The key that an item gives to a field. -/
def key? (i : WrittenItem) : Option String :=
  match i.value with
  | .text s => if i.name = "rename" then some s else Option.none
  | _ => Option.none

/-- Whether an item gives a key for each direction. -/
def splitsKey (i : WrittenItem) : Bool := i.name = "rename" && i.key?.isNone

/-- What an item says. -/
def said (i : WrittenItem) : SerdeItem :=
  match i.key? with
  | some key => .rename key
  | Option.none =>
    if i.skips then .skip else if i.flattens then .flatten else if i.defaults then .default
    else .other

/-- **The items of an attribute that are heard**: those in front of a key for each direction. -/
def heard (is : List WrittenItem) : List WrittenItem := is.takeWhile fun i => !i.splitsKey

end WrittenItem

/-- **Items with commas between them**, and maybe one behind the last. -/
inductive ItemsWritten : List WrittenItem → List Token → Prop
  | none : ItemsWritten [] []
  | last (i : WrittenItem) : ItemsWritten [i] i.tokens
  | closed (i : WrittenItem) (joint : Bool) : ItemsWritten [i] (i.tokens ++ [.punct ',' joint])
  | more (i : WrittenItem) (joint : Bool) {is : List WrittenItem} {tokens : List Token}
      (others : ItemsWritten is tokens) (nonempty : is ≠ []) :
      ItemsWritten (i :: is) (i.tokens ++ .punct ',' joint :: tokens)

/-- **Attributes with items**, one list for each `serde` attribute.  Other attributes may stand between
them. -/
inductive AttributesWritten : List Attribute → List (List WrittenItem) → Prop
  | none : AttributesWritten [] []
  | other {a : Attribute} {attributes : List Attribute} {items : List (List WrittenItem)}
      (apart : a.isNamed "serde" = false) (others : AttributesWritten attributes items) :
      AttributesWritten (a :: attributes) items
  | serde {a : Attribute} {tokens : List Token} {is : List WrittenItem}
      {attributes : List Attribute} {items : List (List WrittenItem)}
      (named : a.isNamed "serde" = true) (content : a.content = .list tokens)
      (written : ItemsWritten is tokens) (others : AttributesWritten attributes items) :
      AttributesWritten (a :: attributes) (is :: items)

namespace WrittenItem

variable {i : WrittenItem}

/-- A mark stands alone. -/
theorem value_of_mark (h : i.name ∈ marks) : i.value = .none := by
  have listed : marks.contains i.name = true := List.contains_iff_mem.mpr h
  have valid : i.value.fits i.name = true := i.valid
  cases value : i.value with
  | none => rfl
  | text s =>
    rw [value, ItemValue.fits, listed] at valid
    cases valid
  | list content =>
    rw [value, ItemValue.fits, listed] at valid
    cases valid

theorem key?_of_ne (h : i.name ≠ "rename") : i.key? = none := by
  unfold key?
  split
  · exact if_neg h
  · rfl

theorem said_of_key {key : String} (h : i.key? = some key) : i.said = .rename key := by
  rw [said, h]

theorem splitsKey_of_key {key : String} (h : i.key? = some key) : i.splitsKey = false := by
  rw [splitsKey, h]
  exact Bool.and_false _

theorem splitsKey_of_ne (h : i.name ≠ "rename") : i.splitsKey = false := by
  rw [splitsKey, decide_eq_false h, Bool.false_and]

theorem heard_cons (i : WrittenItem) (is : List WrittenItem) :
    heard (i :: is) = if i.splitsKey then [] else i :: heard is := by
  rw [heard, List.takeWhile_cons]
  cases i.splitsKey with
  | true => rfl
  | false => rfl

theorem said_of_ne (h : i.name ≠ "rename") :
    i.said = if i.skips then .skip else if i.flattens then .flatten else if i.defaults then .default
      else .other := by
  rw [said, key?_of_ne h]

end WrittenItem

theorem ItemsWritten.nonempty {is : List WrittenItem} {tokens : List Token}
    (h : ItemsWritten is tokens) (nonempty : is ≠ []) : tokens ≠ [] := by
  cases h with
  | none => exact absurd rfl nonempty
  | last i => exact List.cons_ne_nil _ _
  | closed i joint => exact List.cons_ne_nil _ _
  | more i joint others nonempty => exact List.cons_ne_nil _ _

theorem ItemsWritten.length_le {is : List WrittenItem} {tokens : List Token}
    (h : ItemsWritten is tokens) : is.length ≤ tokens.length := by
  induction h with
  | none => exact Nat.le_refl 0
  | last i => exact Nat.succ_le_succ (Nat.zero_le _)
  | closed i joint => exact Nat.succ_le_succ (Nat.zero_le _)
  | more i joint others nonempty ih =>
    rw [List.length_cons, List.length_append, List.length_cons]
    omega

/-! ### Reading one item -/

namespace SerdeItem

variable {α : Type} {g : Grammar} {after : List Token}

theorem run_of_yields {p : Parser α} {before : List Token} {a : α}
    (h : Yields p before a after) : run p before = some (a, after) := by
  rw [run, h []]
  rfl

/-- No path goes on behind a name with a value. -/
theorem op_colons (value : ItemValue) (h : EndsElement after) :
    op "::" (value.tokens ++ after) = false := by
  cases value with
  | none => exact h.op (c := ':') rfl (by decide)
  | text s => exact op_of_ne (c := ':') rfl (by decide) _ _
  | list content => rfl

theorem yields_itemPath (w : Word) {tokens : List Token} (h : op "::" tokens = false) :
    Yields itemPath (.ident w :: tokens) [w.text] tokens := by
  have first : Yields takeAnyWord (.ident w :: tokens) w.text tokens := fun _ => rfl
  refine (yields_optOp_false (op_ident (c := ':') rfl w tokens)).bind ?_
  refine first.bind ?_
  refine (yields_many_done ?_).bind (yields_pure _ _)
  refine (yields_optOp_false h).bind ?_
  exact yields_pure _ _

theorem yields_valueText (s : String) (joint : Bool) (after : List Token) :
    Yields valueText (.punct '=' joint :: .literal (.text s) :: after) s after := by
  have sign : op "=" (.punct '=' joint :: .literal (.text s) :: after) = true := by
    simp [op, beginsWith]
  refine (yields_takeOp sign).bind ?_
  exact fun _ => rfl

/-- A default with or without a function. -/
theorem yields_defaultValue {value : ItemValue} (fits : value.fits "default" = true)
    (h : EndsElement after) : Yields defaultValue (value.tokens ++ after) () after := by
  refine (yields_sees _ _).bind ?_
  cases value with
  | none =>
    have unsaid : op "=" (ItemValue.none.tokens ++ after) = false := h.op (c := '=') rfl (by decide)
    rw [unsaid]
    exact yields_pure () after
  | text s =>
    have sign : op "=" ((ItemValue.text s).tokens ++ after) = true := by
      simp [op, beginsWith, ItemValue.tokens]
    rw [sign]
    exact (yields_valueText s false after).bind (yields_pure _ _)
  | list content => cases fits

/-- Any value is passed over. -/
theorem yields_passOver (reads : ReadsTexts g) (value : ItemValue) (h : EndsElement after) :
    Yields (passOver g) (value.tokens ++ after) () after := by
  refine (yields_rest _).bind ?_
  cases value with
  | none =>
    have unsaid : op "=" (ItemValue.none.tokens ++ after) = false := h.op (c := '=') rfl (by decide)
    have alone : group .paren (ItemValue.none.tokens ++ after) = false := h.group .paren
    rw [unsaid, alone]
    exact yields_pure () after
  | text s =>
    have sign : op "=" ((ItemValue.text s).tokens ++ after) = true := by
      simp [op, beginsWith, ItemValue.tokens]
    rw [if_pos sign]
    refine (yields_takeOp sign).bind ?_
    exact (reads s h).bind (yields_pure _ _)
  | list content => exact fun _ => rfl

/-- Behind `rename` only a key for both directions can be read. -/
theorem run_valueText {i : WrittenItem} (name : i.name = "rename") (after : List Token) :
    run valueText (i.value.tokens ++ after) = i.key?.map fun key => (key, after) := by
  cases value : i.value with
  | none =>
    have valid : i.value.fits i.name = true := i.valid
    rw [value, name] at valid
    cases valid
  | text s =>
    have key : i.key? = some s := by simp [WrittenItem.key?, value, name]
    rw [key]
    exact run_of_yields (yields_valueText s false after)
  | list content =>
    have key : i.key? = none := by simp [WrittenItem.key?, value]
    rw [key]
    rfl

/-- What is read behind an item. -/
def readBehind (g : Grammar) (fuel : Nat) : List Token → List SerdeItem
  | .punct ',' _ :: tokens => if tokens.isEmpty then [] else read g fuel tokens
  | _ => []

/-- **One item**: it is read, and what is behind it is, unless it stops the reading. -/
theorem read_item (reads : ReadsTexts g) (i : WrittenItem) (h : EndsElement after) (fuel : Nat) :
    read g (fuel + 1) (i.tokens ++ after) =
      if i.splitsKey then [] else i.said :: readBehind g fuel after := by
  have path : run itemPath (i.tokens ++ after) = some ([i.name], i.value.tokens ++ after) :=
    run_of_yields (yields_itemPath i.word (op_colons i.value h))
  -- the mark `said`, which takes no value
  have mark : ∀ {said : SerdeItem}, i.name ∈ marks → i.said = said →
      said :: readBehind g fuel (i.value.tokens ++ after) =
        if i.splitsKey then [] else i.said :: readBehind g fuel after := by
    intro said hmark hsaid
    have other : i.name ≠ "rename" := by
      intro he
      rw [he] at hmark
      exact absurd hmark (by decide)
    rw [WrittenItem.splitsKey_of_ne other, WrittenItem.value_of_mark hmark, hsaid]
    rfl
  rw [read, path]
  dsimp only
  split
  case h_1 he =>
    have name : i.name = "rename" := (List.cons.inj he).1
    rw [run_valueText name]
    cases key : i.key? with
    | none =>
      have stops : i.splitsKey = true := by simp [WrittenItem.splitsKey, key, name]
      rw [stops]
      rfl
    | some s =>
      rw [WrittenItem.splitsKey_of_key key, WrittenItem.said_of_key key]
      rfl
  case h_2 he =>
    have name : i.name = "skip" := (List.cons.inj he).1
    exact mark (by simp [marks, name]) (by simp [WrittenItem.said_of_ne, name])
  case h_3 he =>
    have name : i.name = "skip_deserializing" := (List.cons.inj he).1
    exact mark (by simp [marks, name]) (by simp [WrittenItem.said_of_ne, name])
  case h_4 he =>
    have name : i.name = "flatten" := (List.cons.inj he).1
    exact mark (by simp [marks, name]) (by simp [WrittenItem.said_of_ne, name])
  case h_5 he =>
    have name : i.name = "default" := (List.cons.inj he).1
    have fits : i.value.fits "default" = true := name ▸ i.valid
    have said : i.said = .default := by simp [WrittenItem.said_of_ne, name]
    rw [run_of_yields (yields_defaultValue fits h), WrittenItem.splitsKey_of_ne (by simp [name]),
      said]
    rfl
  case h_6 noRename noSkip noSkipDeserializing noFlatten noDefault =>
    have apart : ∀ n, ([i.name] = [n] → False) → i.name ≠ n := fun n h he => h (by rw [he])
    have other : i.name ≠ "rename" := apart _ noRename
    have said : i.said = .other := by
      simp [WrittenItem.said_of_ne other, apart _ noSkip, apart _ noSkipDeserializing,
        apart _ noFlatten, apart _ noDefault]
    rw [run_of_yields (yields_passOver reads i.value h), WrittenItem.splitsKey_of_ne other, said]
    rfl

/-! ### Reading all of them -/

/-- An item in front of others, of which those are read that are heard. -/
theorem read_item_of_behind (reads : ReadsTexts g) (i : WrittenItem) (h : EndsElement after)
    {is : List WrittenItem} {fuel : Nat}
    (behind : readBehind g fuel after = (WrittenItem.heard is).map (·.said)) :
    read g (fuel + 1) (i.tokens ++ after) = (WrittenItem.heard (i :: is)).map (·.said) := by
  rw [read_item reads i h fuel, WrittenItem.heard_cons, behind]
  split
  · rfl
  · rfl

/-- **The items of an attribute**: those that are heard are read. -/
theorem read_of_written (reads : ReadsTexts g) {is : List WrittenItem} {tokens : List Token}
    (h : ItemsWritten is tokens) {fuel : Nat} (enough : is.length ≤ fuel) :
    read g fuel tokens = (WrittenItem.heard is).map (·.said) := by
  induction h generalizing fuel with
  | none =>
    cases fuel with
    | zero => rfl
    | succ fuel => rfl
  | last i =>
    obtain ⟨fuel, rfl⟩ := Nat.exists_eq_add_of_le' enough
    have nothing : readBehind g fuel [] = (WrittenItem.heard []).map (·.said) := rfl
    have item := read_item_of_behind reads i (.inl rfl) nothing
    rw [List.append_nil] at item
    exact item
  | closed i joint =>
    obtain ⟨fuel, rfl⟩ := Nat.exists_eq_add_of_le' enough
    exact read_item_of_behind reads i (.inr ⟨joint, [], rfl⟩) rfl
  | @more i joint is tokens others nonempty ih =>
    obtain ⟨fuel, rfl⟩ := Nat.exists_eq_add_of_le' (Nat.le_trans (Nat.le_add_left 1 _) enough)
    have below : is.length ≤ fuel := Nat.le_of_succ_le_succ enough
    refine read_item_of_behind reads i (.inr ⟨joint, tokens, rfl⟩) ?_
    rw [← ih below]
    exact if_neg (by rw [List.isEmpty_iff]; exact others.nonempty nonempty)

theorem ofAttribute_of_written {a : Attribute} {tokens : List Token} {is : List WrittenItem}
    (named : a.isNamed "serde" = true) (content : a.content = .list tokens)
    (h : ItemsWritten is tokens) : ofAttribute a = (WrittenItem.heard is).map (·.said) := by
  rw [ofAttribute, if_pos named, content]
  exact read_of_written (readsTexts_grammarAt _) h (Nat.le_succ_of_le h.length_le)

/-- **The items of all attributes.** -/
theorem flatMap_ofAttribute {attributes : List Attribute} {items : List (List WrittenItem)}
    (h : AttributesWritten attributes items) :
    attributes.flatMap ofAttribute = (items.flatMap WrittenItem.heard).map (·.said) := by
  induction h with
  | none => rfl
  | other apart others ih =>
    have silent : ∀ a : Attribute, a.isNamed "serde" = false → ofAttribute a = [] := by
      intro a apart
      rw [ofAttribute, apart]
      rfl
    rw [List.flatMap_cons, silent _ apart, List.nil_append, ih]
  | serde named content written others ih =>
    rw [List.flatMap_cons, List.flatMap_cons, List.map_append, ih,
      ofAttribute_of_written named content written]

end SerdeItem

/-! ### What the items add up to -/

/-- **Rules that honour items**, each of them for itself; of several keys the last one counts. -/
structure IsHonoured (items : List WrittenItem) (rules : FieldRules) : Prop where
  skip : rules.skip = true ↔ ∃ i ∈ items, i.name = "skip" ∨ i.name = "skip_deserializing"
  flatten : rules.flatten = true ↔ ∃ i ∈ items, i.name = "flatten"
  default : rules.default = true ↔ ∃ i ∈ items, i.name = "default"
  rename : rules.rename = (items.filterMap (·.key?)).getLast?

namespace FieldRules

/-- What an item adds to the rules so far. -/
theorem add_said (rules : FieldRules) (i : WrittenItem) :
    rules.add i.said =
      ⟨i.key?.or rules.rename, rules.skip || i.skips, rules.flatten || i.flattens,
        rules.default || i.defaults⟩ := by
  by_cases name : i.name = "rename"
  · cases key : i.key? with
    | some s => simp [WrittenItem.said_of_key key, add, name]
    | none => simp [WrittenItem.said, key, add, name]
  · rw [WrittenItem.said_of_ne name, WrittenItem.key?_of_ne name]
    by_cases skip : i.name = "skip" ∨ i.name = "skip_deserializing"
    · rcases skip with skip | skip
      · simp [add, skip]
      · simp [add, skip]
    · obtain ⟨noSkip, noSkipDeserializing⟩ := not_or.mp skip
      by_cases flatten : i.name = "flatten"
      · simp [add, flatten]
      · by_cases default : i.name = "default"
        · simp [add, default]
        · simp [add, noSkip, noSkipDeserializing, flatten, default]

theorem none_honoured : IsHonoured [] none where
  skip := by simp [none]
  flatten := by simp [none]
  default := by simp [none]
  rename := rfl

/-- One item more. -/
theorem add_honoured {items : List WrittenItem} {rules : FieldRules} (h : IsHonoured items rules)
    (i : WrittenItem) : IsHonoured (items ++ [i]) (rules.add i.said) := by
  rw [add_said]
  constructor
  · simp only [Bool.or_eq_true, h.skip, WrittenItem.skips, decide_eq_true_eq, List.mem_append,
      List.mem_singleton, or_and_right, exists_or, exists_eq_left]
  · simp only [Bool.or_eq_true, h.flatten, WrittenItem.flattens, decide_eq_true_eq,
      List.mem_append, List.mem_singleton, or_and_right, exists_or, exists_eq_left]
  · simp only [Bool.or_eq_true, h.default, WrittenItem.defaults, decide_eq_true_eq,
      List.mem_append, List.mem_singleton, or_and_right, exists_or, exists_eq_left]
  · rw [List.filterMap_append, List.getLast?_append, ← h.rename]
    cases key : i.key? with
    | none => simp [key]
    | some key' => simp [key]

/-- **Every item that is read is honoured.** -/
theorem ofSerdeItems_honoured (items : List WrittenItem) :
    IsHonoured items (ofSerdeItems (items.map (·.said))) := by
  -- from the front, with the items `before` that have been added already
  have run : ∀ (after before : List WrittenItem) (rules : FieldRules), IsHonoured before rules →
      IsHonoured (before ++ after) ((after.map (·.said)).foldl add rules) := by
    intro after
    induction after with
    | nil =>
      intro before rules h
      rw [List.append_nil]
      exact h
    | cons i after ih =>
      intro before rules h
      have more := ih (before ++ [i]) (rules.add i.said) (add_honoured h i)
      rw [List.append_assoc] at more
      exact more
  exact run items [] none none_honoured

/-! ### Items that say nothing -/

/-- An item that says nothing makes no difference. -/
theorem ofSerdeItems_filter (items : List SerdeItem) :
    ofSerdeItems (items.filter (· ≠ .other)) = ofSerdeItems items := by
  unfold ofSerdeItems
  generalize none = rules
  induction items generalizing rules with
  | nil => rfl
  | cons item items ih =>
    by_cases silent : item = .other
    · rw [List.filter_cons_of_neg (by simp [silent]), ih, silent]
      rfl
    · rw [List.filter_cons_of_pos (by simp [silent]), List.foldl_cons, List.foldl_cons, ih]

/-- **Attributes in which all counts**: behind a key for each direction, nothing in the same attribute
says anything. -/
def AllCount (items : List (List WrittenItem)) : Prop :=
  ∀ is ∈ items, ∀ before i after, is = before ++ i :: after → i.splitsKey = true →
    ∀ j ∈ after, j.said = .other

theorem said_of_splitsKey {i : WrittenItem} (h : i.splitsKey = true) : i.said = .other := by
  simp only [WrittenItem.splitsKey, Bool.and_eq_true, decide_eq_true_eq, Option.isNone_iff_eq_none]
    at h
  obtain ⟨name, key⟩ := h
  simp [WrittenItem.said, key, name]

/-- What is not heard of an attribute then says nothing. -/
theorem filter_said_heard {is : List WrittenItem}
    (h : ∀ before i after, is = before ++ i :: after → i.splitsKey = true →
      ∀ j ∈ after, j.said = .other) :
    ((WrittenItem.heard is).map (·.said)).filter (· ≠ .other) =
      (is.map (·.said)).filter (· ≠ .other) := by
  induction is with
  | nil => rfl
  | cons i is ih =>
    rw [WrittenItem.heard_cons]
    by_cases splits : i.splitsKey = true
    · have silent : ∀ said ∈ (i :: is).map (·.said), said = .other := by
        intro said hsaid
        obtain ⟨j, hj, rfl⟩ := List.mem_map.mp hsaid
        rcases List.mem_cons.mp hj with rfl | hj
        · exact said_of_splitsKey splits
        · exact h [] i is rfl splits j hj
      rw [if_pos splits, List.map_nil, List.filter_nil, eq_comm, List.filter_eq_nil_iff]
      intro said hsaid
      simp [silent said hsaid]
    · have others := ih fun before j after split =>
        h (i :: before) j after (by rw [split, List.cons_append])
      rw [if_neg splits, List.map_cons, List.map_cons, List.filter_cons, List.filter_cons, others]

theorem filter_said_flatMap_heard {items : List (List WrittenItem)} (h : AllCount items) :
    ((items.flatMap WrittenItem.heard).map (·.said)).filter (· ≠ .other) =
      (items.flatten.map (·.said)).filter (· ≠ .other) := by
  induction items with
  | nil => rfl
  | cons is items ih =>
    have first := filter_said_heard (h is List.mem_cons_self)
    have others := ih fun is' his' => h is' (List.mem_cons_of_mem _ his')
    rw [List.flatMap_cons, List.flatten_cons, List.map_append, List.map_append, List.filter_append,
      List.filter_append, first, others]

/-! ### The order of the items -/

/-- Rules that honour the same items with the same keys are the same. -/
theorem eq_of_honoured {items items' : List WrittenItem} {rules rules' : FieldRules}
    (h : IsHonoured items rules) (h' : IsHonoured items' rules')
    (same : ∀ i, i ∈ items' ↔ i ∈ items)
    (keys : items'.filterMap (·.key?) = items.filterMap (·.key?)) : rules' = rules := by
  obtain ⟨rename, skip, flatten, default⟩ := rules
  obtain ⟨rename', skip', flatten', default'⟩ := rules'
  have hrename : rename' = rename :=
    h'.rename.trans ((congrArg List.getLast? keys).trans h.rename.symm)
  have hskip : skip' = skip := by
    rw [Bool.eq_iff_iff, h'.skip, h.skip]
    simp only [same]
  have hflatten : flatten' = flatten := by
    rw [Bool.eq_iff_iff, h'.flatten, h.flatten]
    simp only [same]
  have hdefault : default' = default := by
    rw [Bool.eq_iff_iff, h'.default, h.default]
    simp only [same]
  rw [hrename, hskip, hflatten, hdefault]

/-- **Items of `serde` attributes.**  The rules of a field or a variant honour the items that are heard,
each of them for itself.  If nothing that says something stands behind a key for each direction in the
same attribute, then they honour all the items, and any other order of the items in any number of
attributes gives the same rules, as long as that is so and the keys come in the same order. -/
theorem items_honoured (attributes : List Attribute) (items : List (List WrittenItem))
    (written : AttributesWritten attributes items) :
    IsHonoured (items.flatMap WrittenItem.heard) (ofAttributes attributes) ∧
    (AllCount items →
      IsHonoured items.flatten (ofAttributes attributes) ∧
      ∀ attributes' items', AttributesWritten attributes' items' → AllCount items' →
        items'.flatten.Perm items.flatten →
        items'.flatten.filterMap (·.key?) = items.flatten.filterMap (·.key?) →
        ofAttributes attributes' = ofAttributes attributes) := by
  have rules : ∀ {attributes items}, AttributesWritten attributes items →
      ofAttributes attributes =
        ofSerdeItems ((items.flatMap WrittenItem.heard).map (·.said)) := by
    intro attributes items written
    rw [ofAttributes, SerdeItem.flatMap_ofAttribute written]
  have all : ∀ {attributes items}, AttributesWritten attributes items → AllCount items →
      IsHonoured items.flatten (ofAttributes attributes) := by
    intro attributes items written count
    rw [rules written, ← ofSerdeItems_filter, filter_said_flatMap_heard count, ofSerdeItems_filter]
    exact ofSerdeItems_honoured items.flatten
  constructor
  · rw [rules written]
    exact ofSerdeItems_honoured _
  · intro count
    refine ⟨all written count, ?_⟩
    intro attributes' items' written' count' perm keys
    exact eq_of_honoured (all written count) (all written' count') (fun i => perm.mem_iff) keys

/-- `default`. -/
def mayMiss : WrittenItem :=
  ⟨.plain ⟨'d', ['e', 'f', 'a', 'u', 'l', 't'], by decide, by decide⟩, .none, by decide⟩

/-- `rename = "id"`. -/
def keyId : WrittenItem :=
  ⟨.plain ⟨'r', ['e', 'n', 'a', 'm', 'e'], by decide, by decide⟩, .text "id", by decide⟩

/-- `skip`. -/
def leftOut : WrittenItem :=
  ⟨.plain ⟨'s', ['k', 'i', 'p'], by decide, by decide⟩, .none, by decide⟩

/-- `rename(serialize = "id")`. -/
def keyWritten : WrittenItem where
  word := keyId.word
  value := .list
    [.ident (.plain ⟨'s', ['e', 'r', 'i', 'a', 'l', 'i', 'z', 'e'], by decide, by decide⟩),
      .punct '=' false, .literal (.text "id")]
  valid := by decide

/-- An attribute with two items. -/
def serdeOf (i j : WrittenItem) : Attribute :=
  ⟨false, ["serde"], .list (i.tokens ++ .punct ',' false :: j.tokens)⟩

theorem serdeOf_written (i j : WrittenItem) : AttributesWritten [serdeOf i j] [[i, j]] :=
  .serde rfl rfl (.more i false (.last j) (List.cons_ne_nil _ _)) .none

/-- A key and a default count in any order. -/
theorem key_and_default :
    (ofAttributes [serdeOf mayMiss keyId]).rename = some "id" ∧
    (ofAttributes [serdeOf mayMiss keyId]).default = true ∧
    ofAttributes [serdeOf keyId mayMiss] = ofAttributes [serdeOf mayMiss keyId] := by
  have count : ∀ i j : WrittenItem, i.splitsKey = false → j.splitsKey = false →
      AllCount [[i, j]] := by
    intro i j hi hj is his before k after split splits
    rw [List.mem_singleton.mp his] at split
    have hk : k ∈ [i, j] := split ▸ List.mem_append_right before List.mem_cons_self
    simp only [List.mem_cons, List.not_mem_nil, or_false] at hk
    rcases hk with rfl | rfl
    · cases hi.symm.trans splits
    · cases hj.symm.trans splits
  obtain ⟨-, all⟩ := items_honoured _ _ (serdeOf_written mayMiss keyId)
  obtain ⟨honoured, anyOrder⟩ := all (count _ _ (by decide) (by decide))
  refine ⟨?_, ?_, ?_⟩
  · rw [honoured.rename]
    decide
  · rw [honoured.default]
    exact ⟨mayMiss, List.mem_cons_self, by decide⟩
  · exact anyOrder _ _ (serdeOf_written keyId mayMiss) (count _ _ (by decide) (by decide))
      (.swap _ _ _) (by decide)

/-- A field that is left out is not, if that is said behind a key for each direction. -/
theorem skip_not_heard :
    AttributesWritten [serdeOf keyWritten leftOut] [[keyWritten, leftOut]] ∧
    (∃ i ∈ [[keyWritten, leftOut]].flatten, i.name = "skip") ∧
    (ofAttributes [serdeOf keyWritten leftOut]).skip = false ∧
    (ofAttributes [serdeOf leftOut keyWritten]).skip = true := by
  refine ⟨serdeOf_written _ _, ⟨leftOut, ?_, by decide⟩, by decide +kernel, by decide +kernel⟩
  exact List.mem_cons_of_mem _ List.mem_cons_self

end FieldRules
end RouteBook
