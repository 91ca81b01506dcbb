import RouteBook.Schema.Row
import RouteBook.Proofs.Text.Pieces
/-! # Places in a schema

A *way* leads from the root of a schema down to a node: a step goes to the field of an object under
a key, or to the element of an array.  `Schema.At s way node` says that `node` stands at the end of
`way` in `s`, and `Schema.all` looks at the nodes at the end of all ways.

The key of a row is a way as text (`Step.pathFrom`).  Reading it again gives the way back, behind
the steps that the text says from which it started (`Step.read_pathFrom`), as long as the keys on the
way are *names*: not empty, and without points and opening brackets.  So two ways of one schema never
have one text, whatever the key of the root is (`Step.pathFrom_inj`).
-/
namespace RouteBook

/-- A step from a node of a schema to one below it. -/
inductive Step where
  | field (key : String)
  | element
  deriving DecidableEq, Repr

/-- Whether a key can be told apart in a path: it is not empty, and neither a point nor a bracket
that opens is in it. -/
def isName (key : String) : Bool :=
  key ≠ "" && !Text.hasChar key '.' && !Text.hasChar key '['

theorem isName_iff {key : String} :
    isName key = true ↔ key ≠ "" ∧ '.' ∉ key.toList ∧ '[' ∉ key.toList := by
  simp [isName, Text.hasChar, and_assoc]

namespace Step
open Text

/-! ### Ways as texts -/

/-- Whether a step goes to an element, or to a field with a name. -/
def isPlain : Step → Bool
  | .field key => isName key
  | .element => true

/-- A path with one more step. -/
def extend (path : String) : Step → String
  | .field key => Schema.fieldPath path key
  | .element => path ++ "[]"

/-- A path with several more steps. -/
def pathFrom (root : String) (way : List Step) : String := way.foldl extend root

@[simp] theorem pathFrom_nil (root : String) : pathFrom root [] = root := rfl

@[simp] theorem pathFrom_cons (root : String) (step : Step) (way : List Step) :
    pathFrom root (step :: way) = pathFrom (extend root step) way := rfl

theorem pathFrom_append (root : String) (way more : List Step) :
    pathFrom root (way ++ more) = pathFrom (pathFrom root way) more :=
  List.foldl_append

/-- The steps that a piece of a path between two points says: to a field, unless the name is missing,
and then to an element for every pair of brackets. -/
def ofPiece (piece : List Char) : List Step :=
  let name := piece.takeWhile (· ≠ '[')
  (if name = [] then [] else [.field (String.ofList name)]) ++
    List.replicate (piece.count '[') .element

/-- The steps that a path says. -/
def read (path : String) : List Step := (splitAt '.' path.toList).flatMap ofPiece

/-! ### Reading a path -/

theorem ofPiece_name {key : String} (h : isName key = true) : ofPiece key.toList = [.field key] := by
  obtain ⟨ne, -, closed⟩ := isName_iff.mp h
  have whole : key.toList.takeWhile (· ≠ '[') = key.toList := by
    have all : ∀ c ∈ key.toList, decide (c ≠ '[') = true := by
      intro c hc
      exact decide_eq_true fun he => closed (he ▸ hc)
    have split : (key.toList ++ []).takeWhile (· ≠ '[') = key.toList ++ [].takeWhile (· ≠ '[') :=
      List.takeWhile_append_of_pos all
    simpa using split
  have chars : key.toList ≠ [] := fun he => ne (String.toList_eq_nil_iff.mp he)
  simp only [ofPiece, whole, if_neg chars, List.count_eq_zero.mpr closed, String.ofList_toList,
    List.replicate_zero, List.append_nil]

/-- A further pair of brackets is a further step. -/
theorem ofPiece_brackets (piece : List Char) :
    ofPiece (piece ++ ['[', ']']) = ofPiece piece ++ [.element] := by
  have name : (piece ++ ['[', ']']).takeWhile (· ≠ '[') = piece.takeWhile (· ≠ '[') := by
    induction piece with
    | nil => rfl
    | cons c piece ih =>
      rw [List.cons_append, List.takeWhile_cons, List.takeWhile_cons, ih]
  have count : (piece ++ ['[', ']']).count '[' = piece.count '[' + 1 := by
    rw [List.count_append]
    rfl
  unfold ofPiece
  rw [name, count, List.replicate_succ', List.append_assoc]

theorem read_empty : read "" = [] := rfl

theorem read_name {key : String} (h : isName key = true) : read key = [.field key] := by
  obtain ⟨-, whole, -⟩ := isName_iff.mp h
  rw [read, splitAt_eq_singleton whole, List.flatMap_singleton, ofPiece_name h]

/-- One step more is read behind all the others. -/
theorem read_extend (path : String) {step : Step} (h : step.isPlain = true) :
    read (extend path step) = read path ++ [step] := by
  cases step with
  | field key =>
    dsimp only [extend, Schema.fieldPath]
    by_cases hpath : path = ""
    · rw [if_pos hpath, hpath, read_name h]
      rfl
    · obtain ⟨-, whole, -⟩ := isName_iff.mp h
      have chars : (path ++ "." ++ key).toList = path.toList ++ '.' :: key.toList := by
        simp [String.toList_append]
      rw [if_neg hpath, read, chars, splitAt_append_cons, splitAt_eq_singleton whole,
        List.flatMap_append, List.flatMap_singleton, ofPiece_name h]
      rfl
  | element =>
    -- the brackets go to the last piece, which says one step more
    obtain ⟨front, last, hsplit⟩ : ∃ front last, splitAt '.' path.toList = front ++ [last] :=
      ⟨_, _, (List.dropLast_concat_getLast (splitAt_ne_nil '.' path.toList)).symm⟩
    have chars : (extend path .element).toList = path.toList ++ ['[', ']'] := by
      simp [extend, String.toList_append]
    have pieces := splitAt_append hsplit (splitAt_eq_singleton (by decide : '.' ∉ ['[', ']']))
    rw [read, chars, pieces, read, hsplit, List.flatMap_append, List.flatMap_append,
      List.flatMap_singleton, List.flatMap_singleton, ofPiece_brackets, List.append_assoc]

/-- **Reading a path** gives back the way that it was made from, behind the steps that the text says
from which it starts. -/
theorem read_pathFrom (root : String) {way : List Step} (plain : ∀ step ∈ way, step.isPlain = true) :
    read (pathFrom root way) = read root ++ way := by
  induction way generalizing root with
  | nil => exact (List.append_nil _).symm
  | cons step way ih =>
    have first := plain step List.mem_cons_self
    have rest : ∀ next ∈ way, next.isPlain = true :=
      fun next hnext => plain next (List.mem_cons_of_mem _ hnext)
    rw [pathFrom_cons, ih _ rest, read_extend root first, List.append_assoc]
    rfl

/-- **Ways with names have paths of their own**, whatever they start from. -/
theorem pathFrom_inj (root : String) {way other : List Step}
    (plain : ∀ step ∈ way, step.isPlain = true) (plainOther : ∀ step ∈ other, step.isPlain = true)
    (h : pathFrom root way = pathFrom root other) : way = other := by
  have same := congrArg read h
  rw [read_pathFrom root plain, read_pathFrom root plainOther] at same
  exact List.append_cancel_left same

/-- A path is empty only at its start. -/
theorem pathFrom_eq_empty_iff {root : String} {way : List Step}
    (plain : ∀ step ∈ way, step.isPlain = true) :
    pathFrom root way = "" ↔ root = "" ∧ way = [] := by
  constructor
  · intro h
    have steps := read_pathFrom root plain
    rw [h, read_empty] at steps
    have hway := (List.append_eq_nil_iff.mp steps.symm).2
    subst hway
    exact ⟨h, rfl⟩
  · rintro ⟨rfl, rfl⟩
    rfl

end Step

namespace Schema

/-! ### Nodes at the end of ways -/

/-- **The node at the end of a way** down from the root of a schema. -/
inductive At : Schema → List Step → Schema → Prop
  | here (s : Schema) : At s [] s
  | element {label : Label} {element node : Schema} {way : List Step} (rest : At element way node) :
      At (.array label element) (.element :: way) node
  | field {label : Label} {isRecursive : Bool} {fields : List (String × Schema)} {key : String}
      {field node : Schema} {way : List Step} (hfield : (key, field) ∈ fields)
      (rest : At field way node) :
      At (.object label isRecursive fields) (.field key :: way) node

theorem At.eq_of_nil {s node : Schema} (h : At s [] node) : s = node := by
  cases h
  rfl

/-- Ways can be continued. -/
theorem At.append {s middle node : Schema} {way more : List Step} (h : At s way middle)
    (rest : At middle more node) : At s (way ++ more) node := by
  induction h with
  | here => exact rest
  | element _ ih => exact .element (ih rest)
  | field hfield _ ih => exact .field hfield (ih rest)

/-- Ways can be left off. -/
theorem At.exists_of_append {s node : Schema} {way more : List Step} (h : At s (way ++ more) node) :
    ∃ middle, At s way middle ∧ At middle more node := by
  induction way generalizing s with
  | nil => exact ⟨s, .here s, h⟩
  | cons step way ih =>
    rw [List.cons_append] at h
    cases h with
    | element rest =>
      obtain ⟨middle, hway, hmore⟩ := ih rest
      exact ⟨middle, .element hway, hmore⟩
    | field hfield rest =>
      obtain ⟨middle, hway, hmore⟩ := ih rest
      exact ⟨middle, .field hfield hway, hmore⟩

theorem size_le_fieldsSize {f : String × Schema} {fields : List (String × Schema)} (h : f ∈ fields) :
    f.2.size ≤ fieldsSize fields := by
  induction fields with
  | nil => exact absurd h List.not_mem_nil
  | cons g fields ih =>
    rw [fieldsSize]
    rcases List.mem_cons.mp h with rfl | h
    · omega
    · have := ih h
      omega

/-- Induction over the nodes of a schema, from below. -/
@[elab_as_elim] theorem byParts {motive : Schema → Prop}
    (primitive : ∀ label sample, motive (.primitive label sample))
    (text : ∀ label sample, motive (.text label sample))
    (array : ∀ label element, motive element → motive (.array label element))
    (object : ∀ label isRecursive fields, (∀ f ∈ fields, motive f.2) →
      motive (.object label isRecursive fields)) (s : Schema) : motive s :=
  match s with
  | .primitive label sample => primitive label sample
  | .text label sample => text label sample
  | .array label element => array label element (byParts primitive text array object element)
  | .object label isRecursive fields =>
    object label isRecursive fields fun f _ => byParts primitive text array object f.2
termination_by s.size
decreasing_by
  · rw [size]
    omega
  · rename_i hf
    have := size_le_fieldsSize hf
    rw [size]
    omega

mutual
/-- Whether all nodes of a schema pass a test. -/
def all (test : Schema → Bool) : Schema → Bool
  | .primitive label sample => test (.primitive label sample)
  | .text label sample => test (.text label sample)
  | .array label element => test (.array label element) && element.all test
  | .object label isRecursive fields =>
    test (.object label isRecursive fields) && allOfFields test fields

/-- Whether all nodes of some fields pass a test. -/
def allOfFields (test : Schema → Bool) : List (String × Schema) → Bool
  | [] => true
  | (_, field) :: fields => field.all test && allOfFields test fields
end

theorem allOfFields_iff {test : Schema → Bool} {fields : List (String × Schema)} :
    allOfFields test fields = true ↔ ∀ f ∈ fields, f.2.all test = true := by
  induction fields with
  | nil => simp [allOfFields]
  | cons f fields ih => simp [allOfFields, ih]

theorem test_of_all {test : Schema → Bool} {s : Schema} (h : s.all test = true) :
    test s = true := by
  cases s with
  | primitive | text => exact h
  | array | object => exact (Bool.and_eq_true_iff.mp h).1

/-- What all nodes pass is passed by all nodes below any of them. -/
theorem At.all {test : Schema → Bool} {s node : Schema} {way : List Step} (h : At s way node)
    (hs : s.all test = true) : node.all test = true := by
  induction h with
  | here => exact hs
  | element _ ih => exact ih (Bool.and_eq_true_iff.mp hs).2
  | field hfield _ ih => exact ih (allOfFields_iff.mp (Bool.and_eq_true_iff.mp hs).2 _ hfield)

/-- **A test of all nodes** is a test of the nodes at the end of all ways. -/
theorem all_iff {test : Schema → Bool} {s : Schema} :
    s.all test = true ↔ ∀ way node, s.At way node → test node = true := by
  constructor
  · intro h way node hnode
    exact test_of_all (hnode.all h)
  · intro h
    induction s using byParts with
    | primitive label sample => exact h [] _ (.here _)
    | text label sample => exact h [] _ (.here _)
    | array label element ih =>
      refine Bool.and_eq_true_iff.mpr ⟨h [] _ (.here _), ih ?_⟩
      exact fun way node hnode => h (.element :: way) node (.element hnode)
    | object label isRecursive fields ih =>
      refine Bool.and_eq_true_iff.mpr ⟨h [] _ (.here _), allOfFields_iff.mpr fun f hf => ih f hf ?_⟩
      exact fun way node hnode => h (.field f.1 :: way) node (.field hf hnode)

/-! ### Keys -/

/-- The keys of the fields of an object. -/
def fieldKeys : Schema → List String
  | .object _ _ fields => fields.map Prod.fst
  | _ => []

/-- Whether the keys of the fields are names. -/
def hasNames (s : Schema) : Bool := s.fieldKeys.all isName

/-- Whether no two fields have one key. -/
def hasDistinctKeys (s : Schema) : Bool := decide s.fieldKeys.Nodup

theorem hasDistinctKeys_iff {s : Schema} : s.hasDistinctKeys = true ↔ s.fieldKeys.Nodup :=
  decide_eq_true_iff

/-- If all keys are names then all ways have paths of their own. -/
theorem At.isPlain {s node : Schema} {way : List Step} (h : At s way node)
    (names : s.all hasNames = true) : ∀ step ∈ way, step.isPlain = true := by
  induction h with
  | here => exact fun _ hstep => absurd hstep List.not_mem_nil
  | element rest ih =>
    intro step hstep
    rcases List.mem_cons.mp hstep with rfl | hstep
    · rfl
    · exact ih (At.all (.element (.here _)) names) step hstep
  | field hfield rest ih =>
    intro step hstep
    rcases List.mem_cons.mp hstep with rfl | hstep
    · have keys := test_of_all names
      rw [hasNames, fieldKeys, List.all_eq_true] at keys
      exact keys _ (List.mem_map_of_mem hfield)
    · exact ih (At.all (.field hfield (.here _)) names) step hstep

/-- The path of a way down from the root, which starts with the key of the root. -/
def pathOf (s : Schema) (way : List Step) : String := Step.pathFrom (s.label.key.getD "") way

end Schema
end RouteBook
