import RouteBook.Proofs.Files.Below
/-! # Paths by their components

A path may be written in several ways: a slash may be doubled, and a point between two slashes leads
nowhere.  What all of them have in common are the components.

The path of a file is a text with an ending behind it.  The ending goes to the last component, and so
two files with endings of one length have the same path iff the endings are the same and the texts
*open* alike: with the same components before the last slash and the same letters behind it
(`components_append_inj`).

A path that stays below a directory, and does not begin with a point, leads to where its components
say (`wayOf_join_of_isDirect`), and so two of them lead to one place only if they are the same path.
-/
namespace RouteBook

namespace Path

variable {start start' ending ending' path : String}

/-! ### Paths with an ending -/

/-- The components of pieces that have a name behind them. -/
def leading : List String → List String
  | [] => []
  | first :: rest => (if first.isEmpty then "/" else first) :: rest.filter (!isStay ·)

/-- How a text opens a path: the components before its last slash, and the letters behind it. -/
def opening (start : String) : List String × String :=
  (leading (Text.pieces '/' start).dropLast, fileName start)

/-- **The components of a file with an ending.** -/
theorem components_append (h : IsEnding ending) (start : String) :
    components (start ++ ending) = (opening start).1 ++ [(opening start).2 ++ ending] := by
  have pieces := pieces_append start h.slash_notMem
  have notStay : isStay (fileName start ++ ending) = false := by
    have named := (isNamed_append h start).1
    rwa [fileName_of_pieces pieces] at named
  have notEmpty : (fileName start ++ ending).isEmpty = false := (Bool.or_eq_false_iff.mp notStay).1
  unfold components opening
  rw [pieces]
  cases (Text.pieces '/' start).dropLast with
  | nil => simp [leading, notEmpty]
  | cons first front =>
    simp only [leading, List.cons_append, List.filter_append, List.filter_cons, notStay]
    cases first.isEmpty <;> simp

/-- **When two files with endings have one path.** -/
theorem components_append_inj (h : IsEnding ending) (h' : IsEnding ending')
    (length : ending.toList.length = ending'.toList.length) :
    components (start ++ ending) = components (start' ++ ending') ↔
      opening start = opening start' ∧ ending = ending' := by
  rw [components_append h, components_append h']
  constructor
  · intro same
    obtain ⟨fronts, names⟩ := List.append_inj' same rfl
    have chars : (opening start).2.toList ++ ending.toList =
        (opening start').2.toList ++ ending'.toList := by
      rw [← String.toList_append, List.singleton_inj.mp names, String.toList_append]
    obtain ⟨lasts, endings⟩ := List.append_inj' chars length
    exact ⟨Prod.ext fronts (String.toList_inj.mp lasts), String.toList_inj.mp endings⟩
  · rintro ⟨opens, rfl⟩
    rw [opens]

/-- A doubled slash does not make another path. -/
example : opening "api_a//b" = opening "api_a/b" := by decide +kernel

/-! ### Paths below a directory -/

/-- A path that stays below the directory from which it is seen, and does not begin with a point. -/
structure IsDirect (path : String) : Prop where
  below : IsBelow path
  noPoint : "." ∉ components path

instance (path : String) : Decidable (IsDirect path) :=
  decidable_of_iff (IsBelow path ∧ "." ∉ components path)
    ⟨fun h => ⟨h.1, h.2⟩, fun h => ⟨h.below, h.noPoint⟩⟩

/-- The components of such a path are the names among its pieces. -/
theorem IsDirect.components_eq (h : IsDirect path) :
    components path = (Text.pieces '/' path).filter (!isStay ·) := by
  obtain ⟨first, rest, pieces⟩ := List.exists_cons_of_ne_nil (pieces_ne_nil path)
  have notEmpty : first ≠ "" := by
    rintro rfl
    cases rest with
    | nil => exact h.below.ne_empty (eq_of_pieces_eq_singleton pieces)
    | cons piece rest =>
      have absolute := isAbsolute_iff.mpr ⟨piece, rest, pieces⟩
      rw [h.below.relative] at absolute
      cases absolute
  have all : components path = first :: rest.filter (!isStay ·) := by
    unfold components
    rw [pieces]
    exact if_pos (by rw [isEmpty_eq_false notEmpty]; rfl)
  have name : (!isStay first) = true := by
    rw [isStay, isEmpty_eq_false notEmpty, Bool.false_or, Bool.not_eq_true', beq_eq_false_iff_ne]
    rintro rfl
    exact h.noPoint (by rw [all]; exact List.mem_cons_self)
  rw [all, pieces, List.filter_cons, if_pos name]

end Path

namespace Files

/-- **Such a path leads to where its components say.** -/
theorem wayOf_join_of_isDirect (files : Files) {path : String} (h : Path.IsDirect path)
    (dir : String) :
    files.wayOf (Path.join dir path) = files.wayOf dir ++ Path.components path := by
  rw [wayOf_join files h.below.relative, foldl_next_of_notUp h.below.notUp, h.components_eq]

end Files
end RouteBook
