import RouteBook.Json.Print
import RouteBook.Decimal.Reading
/-! # Schemas

A schema is what the documentation says about the values of a type.  It is a tree: an array has
the schema of its elements, and an object has a schema for each of its fields, in the order in
which the fields were added.  Every node carries a `Label`.

A schema may be *unavailable*: nothing is known about the type, and whatever has it is left out.
An object may be a *recursive marker*: it stands for a type that is being described already.
-/
namespace RouteBook

/-- What is said about a node of a schema. -/
structure Label where
  /-- The key of the field that the node is. -/
  key : Option String
  type : String
  required : Bool
  /-- The value that stands for a missing one. -/
  fallback : Option Json
  remark : Option String
  isAvailable : Bool
  deriving Repr, Inhabited

inductive Schema where
  /-- A value that has no parts and is no text. -/
  | primitive (label : Label) (sample : Json)
  | text (label : Label) (sample : String)
  | array (label : Label) (element : Schema)
  | object (label : Label) (isRecursive : Bool) (fields : List (String × Schema))
  deriving Repr, Inhabited

/-- The label of a required value without anything further to say. -/
def Label.ofType (type : String) : Label := ⟨none, type, true, none, none, true⟩

namespace Schema

def label : Schema → Label
  | .primitive label _ => label
  | .text label _ => label
  | .array label _ => label
  | .object label _ _ => label

/-- Changes the label of the root. -/
def mapLabel (f : Label → Label) : Schema → Schema
  | .primitive label sample => .primitive (f label) sample
  | .text label sample => .text (f label) sample
  | .array label element => .array (f label) element
  | .object label isRecursive fields => .object (f label) isRecursive fields

@[simp] theorem label_mapLabel (f : Label → Label) (s : Schema) :
    (s.mapLabel f).label = f s.label := by
  cases s <;> rfl

/-! ### Making schemas -/

def ofPrimitive (type : String) (sample : Json) : Schema := .primitive (Label.ofType type) sample

def ofText (type sample : String) : Schema := .text (Label.ofType type) sample

def ofElement (element : Schema) : Schema :=
  .array (Label.ofType (element.label.type ++ "[]")) element

/-- An object without fields. -/
def emptyObject (type : String) : Schema := .object (Label.ofType type) false []

/-- The marker for a type that is being described already. -/
def recursive (type : String) : Schema := .object (Label.ofType type) true []

/-- What stands for a type that nothing is known about. -/
def unavailable (type : String) : Schema :=
  .object { Label.ofType type with isAvailable := false } false []

/-! ### What kind of node it is -/

def isAvailable (s : Schema) : Bool := s.label.isAvailable

@[simp] theorem isAvailable_unavailable (type : String) : (unavailable type).isAvailable = false :=
  rfl

def isScalar : Schema → Bool
  | .primitive _ _ => true
  | .text _ _ => true
  | _ => false

def isArray : Schema → Bool
  | .array _ _ => true
  | _ => false

def isObject : Schema → Bool
  | .object _ _ _ => true
  | _ => false

/-- The fields of an object. -/
def fields? : Schema → Option (List (String × Schema))
  | .object _ _ fields => some fields
  | _ => none

/-- The element of an array. -/
def element? : Schema → Option Schema
  | .array _ element => some element
  | _ => none

/-! ### Editing the root -/

def withKey (s : Schema) (key : String) : Schema := s.mapLabel ({ · with key := some key })

def withRequired (s : Schema) (required : Bool) : Schema :=
  s.mapLabel ({ · with required := required })

@[simp] theorem isAvailable_withRequired (s : Schema) (required : Bool) :
    (s.withRequired required).isAvailable = s.isAvailable := by
  rw [isAvailable, withRequired, label_mapLabel, isAvailable]

/-- Adds to a remark, a blank apart from what it says already. -/
def Label.addRemark (label : Label) (remark : String) : Label :=
  let remark := Text.trimmed remark
  if remark = "" then label
  else
    match label.remark with
    | some before =>
      if before = "" then { label with remark := some remark }
      else { label with remark := some (before ++ " " ++ remark) }
    | none => { label with remark := some remark }

/-- A remark changes nothing but the remark. -/
theorem Label.addRemark_eq (label : Label) (remark : String) :
    ∃ after, Label.addRemark label remark = { label with remark := after } := by
  unfold Label.addRemark
  by_cases h : Text.trimmed remark = ""
  · exact ⟨label.remark, by simp only [h, if_true]⟩
  · simp only [h, if_false]
    split
    · split <;> exact ⟨_, rfl⟩
    · exact ⟨_, rfl⟩

def addRemark (s : Schema) (remark : String) : Schema :=
  s.mapLabel (Label.addRemark · remark)

/-- The integers that a fallback value may be. -/
def fallbackRange (i : Int) : Bool := -Int.pow 2 63 ≤ i && i < Int.pow 2 63

/-- The value that a text denotes, of the kind that a sample value has.  A text that denotes no
such value is kept as it is. -/
def valueLike (sample : Json) (written : String) : Json :=
  let trimmed := Text.trimmed written
  match sample with
  | .bool _ =>
    if trimmed = "true" then .bool true
    else if trimmed = "false" then .bool false
    else .text written
  | .number (.double _) =>
    match (Decimal.double? trimmed.toList).filter Binary64.isFinite with
    | some x => .number (.double x)
    | none => .text written
  | .number (.int _) =>
    match (Decimal.int? trimmed.toList).filter fallbackRange with
    | some i => .ofInt i
    | none => .text written
  | _ => .text written

/-- Sets the fallback value of a scalar; arrays and objects have none. -/
def setFallback (s : Schema) (written : String) : Schema :=
  match s with
  | .primitive label sample =>
    .primitive { label with fallback := some (valueLike sample written) } sample
  | .text label sample => .text { label with fallback := some (.text written) } sample
  | s => s

/-! ### Sample values -/

mutual
/-- A sample value: the fallback if there is one, and otherwise what the parts give. -/
def sample : Schema → Json
  | .primitive label sample => label.fallback.getD sample
  | .text label sample => label.fallback.getD (.text sample)
  | .array label element => label.fallback.getD (.array [element.sample])
  | .object label _ fields => label.fallback.getD (.object (sampleFields fields))

/-- The members of the sample value of an object. -/
def sampleFields : List (String × Schema) → List (String × Json)
  | [] => []
  | (key, field) :: fields => (key, field.sample) :: sampleFields fields
end

mutual
/-- The number of nodes. -/
def size : Schema → Nat
  | .primitive _ _ => 1
  | .text _ _ => 1
  | .array _ element => element.size + 1
  | .object _ _ fields => fieldsSize fields + 1

def fieldsSize : List (String × Schema) → Nat
  | [] => 0
  | (_, field) :: fields => field.size + fieldsSize fields
end

end Schema
end RouteBook
