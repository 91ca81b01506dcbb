import RouteBook.Schema.Basic
/-! # Fields of objects

Adding a field to an object and merging two objects.  In a merge the first object decides, and
the second one fills in what the first leaves open.
-/
namespace RouteBook
namespace Schema

/-- Adds a field to an object under the key that it carries.  A field under the same key is
replaced; a field without a key is dropped, and so is one for anything but an object. -/
def addField (s : Schema) (field : Schema) : Schema :=
  match s, field.label.key with
  | .object label isRecursive fields, some key =>
    .object label isRecursive (insertPair key field fields)
  | s, _ => s

@[simp] theorem label_addField (s field : Schema) : (s.addField field).label = s.label := by
  unfold addField
  split <;> rfl

/-- What a field becomes when another description of the same field fills in what it leaves
open: its remark and, if it is a scalar, its fallback. -/
def complete (field other : Schema) : Schema :=
  let remark := field.label.remark.or other.label.remark
  let fallback :=
    if field.isScalar then field.label.fallback.or other.label.fallback
    else field.label.fallback
  field.mapLabel ({ · with remark := remark, fallback := fallback })

/-- Merges one more field into a list of fields. -/
def mergeField (fields : List (String × Schema)) (new : String × Schema) :
    List (String × Schema) :=
  match fields with
  | [] => [new]
  | (key, field) :: rest =>
    if key = new.1 then (key, complete field new.2) :: rest
    else (key, field) :: mergeField rest new

theorem forall_mergeField {motive : String × Schema → Prop}
    (completed : ∀ key field other, motive (key, field) → motive (key, other) →
      motive (key, complete field other))
    {fields : List (String × Schema)} {new : String × Schema} (old : ∀ p ∈ fields, motive p)
    (added : motive new) : ∀ p ∈ mergeField fields new, motive p := by
  induction fields with
  | nil => simpa [mergeField] using added
  | cons p rest ih =>
    obtain ⟨key, field⟩ := p
    have tail : ∀ p ∈ rest, motive p := fun p hp => old p (List.mem_cons_of_mem _ hp)
    unfold mergeField
    split
    · rename_i h
      subst h
      intro q hq
      rcases List.mem_cons.mp hq with rfl | hq
      · exact completed _ _ _ (old _ List.mem_cons_self) added
      · exact tail q hq
    · intro q hq
      rcases List.mem_cons.mp hq with rfl | hq
      · exact old _ List.mem_cons_self
      · exact ih tail q hq

/-- Merges two lists of fields. -/
def mergeFields (fields others : List (String × Schema)) : List (String × Schema) :=
  others.foldl mergeField fields

/-- What holds of the fields of two objects holds of the fields of their merge, if it only looks at
what `complete` leaves alone. -/
theorem forall_mergeFields {motive : String × Schema → Prop}
    (completed : ∀ key field other, motive (key, field) → motive (key, other) →
      motive (key, complete field other))
    {fields others : List (String × Schema)} (left : ∀ p ∈ fields, motive p)
    (right : ∀ p ∈ others, motive p) : ∀ p ∈ mergeFields fields others, motive p := by
  induction others generalizing fields with
  | nil => exact left
  | cons new others ih =>
    have first : ∀ p ∈ mergeField fields new, motive p :=
      forall_mergeField completed left (right new List.mem_cons_self)
    exact ih first fun p hp => right p (List.mem_cons_of_mem _ hp)

/-- Merges the fields of one object into another; nothing happens unless both are objects. -/
def merge (s other : Schema) : Schema :=
  match s, other with
  | .object label isRecursive fields, .object _ _ others =>
    .object label isRecursive (mergeFields fields others)
  | s, _ => s

@[simp] theorem label_merge (s other : Schema) : (s.merge other).label = s.label := by
  unfold merge
  split <;> rfl

end Schema
end RouteBook
