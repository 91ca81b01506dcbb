import RouteBook.Proofs.Files.Writing
/-! # Paths below a directory

A relative path without a piece that goes up leads below the directory from which it is seen
(`wayOf_isPrefix_join`).  Which paths these are can be seen from how they are composed: a path that
gets an ending is one iff no piece goes up before its last (`isBelow_append_iff`), and what is put
behind the identifier of a project counts from its second piece on (`isInward_append_iff`).
-/
namespace RouteBook

namespace Path

/-! ### Paths that do not go up -/

/-- A path that leads below the directory from which it is seen: it does not start at the root, and
none of its pieces goes up. -/
structure IsBelow (path : String) : Prop where
  ne_empty : path ≠ ""
  relative : isAbsolute path = false
  notUp : ".." ∉ Text.pieces '/' path

/-- A text with which such a path may begin; its last piece is not finished yet. -/
structure IsInward (start : String) : Prop where
  relative : isAbsolute start = false
  notUp : ".." ∉ (Text.pieces '/' start).dropLast

instance (path : String) : Decidable (IsBelow path) :=
  decidable_of_iff
    (path ≠ "" ∧ isAbsolute path = false ∧ ".." ∉ Text.pieces '/' path)
    ⟨fun h => ⟨h.1, h.2.1, h.2.2⟩, fun h => ⟨h.ne_empty, h.relative, h.notUp⟩⟩

instance (start : String) : Decidable (IsInward start) :=
  decidable_of_iff
    (isAbsolute start = false ∧ ".." ∉ (Text.pieces '/' start).dropLast)
    ⟨fun h => ⟨h.1, h.2⟩, fun h => ⟨h.relative, h.notUp⟩⟩

/-- The pieces of a text that become pieces of their own when something stands before it and behind
it. -/
def innerPieces (text : String) : List String := (Text.pieces '/' text).dropLast.tail

/-- A text as the end of a path: it has no slash and is too long to end a path by going up. -/
structure IsEnding (ending : String) : Prop where
  slash_notMem : '/' ∉ ending.toList
  long : 2 < ending.length

variable {start ending name : String}

/-- A file with an ending has a name. -/
theorem isNamed_append (h : IsEnding ending) (start : String) : IsNamed (start ++ ending) := by
  have name : fileName (start ++ ending) = fileName start ++ ending :=
    fileName_of_pieces (pieces_append start h.slash_notMem)
  have long : 2 < (fileName (start ++ ending)).length := by
    have := h.long
    rw [name, String.length_append]
    omega
  refine ⟨?_, ?_⟩
  · rw [isStay, Bool.or_eq_false_iff]
    constructor
    · refine isEmpty_eq_false fun empty => ?_
      rw [empty] at long
      exact absurd long (by decide)
    · rw [beq_eq_false_iff_ne]
      intro stay
      rw [stay] at long
      exact absurd long (by decide)
  · intro up
    rw [up] at long
    exact absurd long (by decide)

/-- **Which files lie below a directory**: those whose path begins inward. -/
theorem isBelow_append_iff (h : IsEnding ending) : IsBelow (start ++ ending) ↔ IsInward start := by
  have pieces := pieces_append start h.slash_notMem
  have absolute := isAbsolute_append start h.slash_notMem
  have long : ".." ≠ fileName start ++ ending := by
    intro same
    have lengths := congrArg String.length same
    have := h.long
    rw [String.length_append, show "..".length = 2 from rfl] at lengths
    omega
  constructor
  · rintro ⟨-, relative, notUp⟩
    rw [absolute] at relative
    rw [pieces] at notUp
    exact ⟨relative, fun hmem => notUp (List.mem_append_left _ hmem)⟩
  · rintro ⟨relative, notUp⟩
    refine ⟨fun empty => ?_, absolute.trans relative, ?_⟩
    · exact absurd (isNamed_append h start).1 (by rw [empty]; decide)
    · rw [pieces, List.mem_append, List.mem_singleton, not_or]
      exact ⟨notUp, long⟩

theorem isAbsolute_append_of_ne {front : String} (ne : front ≠ "") (back : String) :
    isAbsolute (front ++ back) = isAbsolute front := by
  unfold isAbsolute
  rw [String.toList_append]
  cases hfront : front.toList with
  | nil => exact absurd (String.toList_eq_nil_iff.mp hfront) ne
  | cons c cs => rfl

/-- **What is put behind an identifier** makes a path go up iff one of its inner pieces does. -/
theorem isInward_append_iff (id name : String) :
    IsInward (id ++ "_" ++ name) ↔ IsInward id ∧ ".." ∉ innerPieces name := by
  have underscore : '/' ∉ "_".toList := by decide
  have front := pieces_append id underscore
  have longer : id ++ "_" ≠ "" := fun empty =>
    absurd (congrArg String.length empty) (by rw [String.length_append]; simp)
  have absolute : isAbsolute (id ++ "_" ++ name) = isAbsolute id :=
    (isAbsolute_append_of_ne longer name).trans (isAbsolute_append id underscore)
  cases back : Text.pieces '/' name with
  | nil => exact absurd back (pieces_ne_nil name)
  | cons first rest =>
    have pieces := pieces_append_of_eq front back
    have apart : ".." ≠ fileName id ++ "_" ++ first := by
      intro same
      have letters : '_' ∈ "..".toList := by
        rw [same]
        simp
      exact absurd letters (by decide)
    have inner : innerPieces name = rest.dropLast := by
      rw [innerPieces, back]
      cases rest with
      | nil => rfl
      | cons second rest => rfl
    have notUp : ".." ∉ (Text.pieces '/' (id ++ "_" ++ name)).dropLast ↔
        ".." ∉ (Text.pieces '/' id).dropLast ∧ ".." ∉ rest.dropLast := by
      rw [pieces]
      cases rest with
      | nil => simp
      | cons second rest =>
        rw [List.dropLast_append_cons, List.dropLast_cons_cons, List.mem_append, List.mem_cons,
          not_or, not_or]
        exact ⟨fun h => ⟨h.1, h.2.2⟩, fun h => ⟨h.1, apart, h.2⟩⟩
    rw [inner]
    constructor
    · rintro ⟨relative, up⟩
      obtain ⟨up, up'⟩ := notUp.mp up
      exact ⟨⟨absolute ▸ relative, up⟩, up'⟩
    · rintro ⟨⟨relative, up⟩, up'⟩
      exact ⟨absolute.trans relative, notUp.mpr ⟨up, up'⟩⟩

/-- A name without a slash does not lead anywhere but to itself. -/
theorem isInward_of_slash_notMem (h : '/' ∉ name.toList) : IsInward name := by
  refine ⟨?_, ?_⟩
  · rw [← Bool.not_eq_true, isAbsolute_iff, pieces_of_slash_notMem h]
    rintro ⟨piece, rest, hpieces⟩
    exact List.cons_ne_nil piece rest (List.cons.inj hpieces).2.symm
  · rw [pieces_of_slash_notMem h]
    exact List.not_mem_nil

/-! ### Paths behind a directory -/

theorem join_empty (path : String) : join "" path = path := by
  rw [join, show "".isEmpty = true from rfl, Bool.or_true, if_pos rfl]

/-- The pieces of a path behind a directory are those of both. -/
theorem exists_pieces_join {path : String} (relative : isAbsolute path = false) {dir : String}
    (ne : dir ≠ "") :
    ∃ front, Text.pieces '/' (join dir path) = front ++ Text.pieces '/' path ∧
      (Text.pieces '/' dir = front ∨ Text.pieces '/' dir = front ++ [""]) ∧
      isAbsolute (join dir path) = isAbsolute dir := by
  have notEmpty := isEmpty_eq_false ne
  unfold join
  rw [relative, notEmpty, Bool.or_self, if_neg Bool.false_ne_true]
  split
  · -- the slash at the end of the directory separates both
    rename_i slash
    obtain ⟨cs, hcs⟩ := List.getLast?_eq_some_iff.mp (beq_iff_eq.mp slash)
    have ended : dir = String.ofList cs ++ "/" := by
      rw [← String.toList_inj, hcs]
      simp
    refine ⟨Text.pieces '/' (String.ofList cs), ?_, .inr ?_, isAbsolute_append_of_ne ne path⟩
    · rw [ended, pieces_append_slash]
    · have split := pieces_append_slash (String.ofList cs) ""
      rw [String.append_empty, ← ended] at split
      exact split
  · refine ⟨Text.pieces '/' dir, pieces_append_slash dir path, .inl rfl, ?_⟩
    rw [String.append_assoc]
    exact isAbsolute_append_of_ne ne _

theorem fileName_join (dir path : String) : fileName (join dir path) = fileName path := by
  by_cases absolute : isAbsolute path
  · rw [join, absolute]
    rfl
  · by_cases ne : dir = ""
    · rw [ne, join_empty]
    · obtain ⟨front, pieces, -, -⟩ := exists_pieces_join (Bool.not_eq_true _ ▸ absolute) ne
      rw [pieces_eq_concat path, ← List.append_assoc] at pieces
      exact fileName_of_pieces pieces

theorem isNamed_join {path : String} (named : IsNamed path) (dir : String) :
    IsNamed (join dir path) := by
  rw [IsNamed, fileName_join]
  exact named

end Path

namespace Files

/-- A path leads on from the directory from which it is seen. -/
theorem wayOf_join (files : Files) {path : String} (relative : Path.isAbsolute path = false)
    (dir : String) :
    files.wayOf (Path.join dir path) = (Text.pieces '/' path).foldl next (files.wayOf dir) := by
  by_cases ne : dir = ""
  · subst ne
    rw [Path.join_empty, wayOf_eq, start, relative]
    rfl
  · obtain ⟨front, pieces, hdir, absolute⟩ := Path.exists_pieces_join relative ne
    have start : files.start (Path.join dir path) = files.start dir := by
      rw [start, start, absolute]
    have way : files.wayOf dir = front.foldl next (files.start dir) := by
      rw [wayOf_eq]
      obtain h | h := hdir
      · rw [h]
      · rw [h, List.foldl_append]
        rfl
    rw [wayOf_eq, pieces, List.foldl_append, start, way]

/-- Pieces that do not go up add to a way all names among them. -/
theorem foldl_next_of_notUp {pieces : List String} (notUp : ".." ∉ pieces) (way : List String) :
    pieces.foldl next way = way ++ pieces.filter (!Path.isStay ·) := by
  induction pieces generalizing way with
  | nil => exact (List.append_nil way).symm
  | cons piece pieces ih =>
    obtain ⟨name, rest⟩ := List.ne_and_not_mem_of_not_mem_cons notUp
    rw [List.foldl_cons, ih rest]
    cases stay : Path.isStay piece with
    | true => rw [next_of_isStay stay, List.filter_cons_of_neg (by simp [stay])]
    | false =>
      rw [next_of_isName stay name.symm, List.filter_cons_of_pos (by simp [stay]),
        List.append_assoc]
      rfl

/-- **A path that does not go up stays below** the directory from which it is seen. -/
theorem wayOf_isPrefix_join (files : Files) {path : String} (h : Path.IsBelow path)
    (dir : String) : files.wayOf dir <+: files.wayOf (Path.join dir path) := by
  rw [wayOf_join files h.relative, foldl_next_of_notUp h.notUp]
  exact List.prefix_append _ _

end Files
end RouteBook
