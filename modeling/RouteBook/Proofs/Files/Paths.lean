import RouteBook.Files.Tree
import RouteBook.Proofs.Text.Pieces
/-! # Paths as texts

A path is followed piece by piece, so what a path is made of decides where it leads.  A path that
has something put behind it, without a slash, keeps all pieces but the last (`pieces_append`); a
path behind a directory has the pieces of both (`wayOf_join`).

The way to the directory of a path is the way to the path without its last name, apart from pieces
that lead nowhere (`exists_parent?`).
-/
namespace RouteBook
namespace Path

/-! ### Pieces -/

theorem isEmpty_eq_false {path : String} (h : path ≠ "") : path.isEmpty = false := by
  rw [← Bool.not_eq_true, String.isEmpty_iff]
  exact h

theorem pieces_ne_nil (path : String) : Text.pieces '/' path ≠ [] := by
  unfold Text.pieces
  exact fun h => Text.splitAt_ne_nil '/' path.toList (List.map_eq_nil_iff.mp h)

/-- The last piece of a path is its file name. -/
theorem pieces_eq_concat (path : String) :
    Text.pieces '/' path = (Text.pieces '/' path).dropLast ++ [fileName path] := by
  have ne := pieces_ne_nil path
  rw [fileName, List.getLastD_eq_getLast?, List.getLast?_eq_some_getLast ne, Option.getD_some,
    List.dropLast_concat_getLast ne]

theorem fileName_of_pieces {path name : String} {front : List String}
    (h : Text.pieces '/' path = front ++ [name]) : fileName path = name := by
  rw [fileName, h, List.getLastD_concat]

theorem slash_notMem_of_mem_pieces {path piece : String} (h : piece ∈ Text.pieces '/' path) :
    '/' ∉ piece.toList := by
  obtain ⟨cs, hcs, rfl⟩ := List.mem_map.mp h
  rw [String.toList_ofList]
  exact Text.notMem_of_mem_splitAt hcs

theorem pieces_of_slash_notMem {path : String} (h : '/' ∉ path.toList) :
    Text.pieces '/' path = [path] := by
  rw [Text.pieces, Text.splitAt_eq_singleton h, List.map_singleton, String.ofList_toList]

theorem pieces_joined {names : List String} (ne : names ≠ [])
    (h : ∀ name ∈ names, '/' ∉ name.toList) :
    Text.pieces '/' (Text.joined "/" names) = names := by
  have split : Text.splitAt '/' (Text.joinWith ['/'] (names.map String.toList)) =
      names.map String.toList := by
    refine Text.splitAt_joinWith (fun hnil => ne (List.map_eq_nil_iff.mp hnil)) ?_
    intro cs hcs
    obtain ⟨name, hname, rfl⟩ := List.mem_map.mp hcs
    exact h name hname
  unfold Text.pieces Text.joined
  rw [String.toList_ofList]
  show (Text.splitAt '/' (Text.joinWith ['/'] (names.map String.toList))).map String.ofList = names
  rw [split, List.map_map]
  simp

theorem pieces_append_slash (a b : String) :
    Text.pieces '/' (a ++ "/" ++ b) = Text.pieces '/' a ++ Text.pieces '/' b := by
  have list : (a ++ "/" ++ b).toList = a.toList ++ '/' :: b.toList := by simp
  rw [Text.pieces, list, Text.splitAt_append_cons, List.map_append]
  rfl

/-- Two texts behind each other share a piece where they meet. -/
theorem pieces_append_of_eq {a b last first : String} {front back : List String}
    (ha : Text.pieces '/' a = front ++ [last]) (hb : Text.pieces '/' b = first :: back) :
    Text.pieces '/' (a ++ b) = front ++ (last ++ first) :: back := by
  obtain ⟨front', lasts, hsplit, rfl, hlast⟩ := List.map_eq_append_iff.mp ha
  obtain ⟨last', rfl, rfl⟩ := List.map_eq_singleton_iff.mp hlast
  obtain ⟨first', back', hsplit', rfl, rfl⟩ := List.map_eq_cons_iff.mp hb
  rw [Text.pieces, String.toList_append, Text.splitAt_append hsplit hsplit', List.map_append,
    List.map_cons, String.ofList_append]

/-- What is put behind a path without a slash goes to its file name. -/
theorem pieces_append (path : String) {ending : String} (h : '/' ∉ ending.toList) :
    Text.pieces '/' (path ++ ending) =
      (Text.pieces '/' path).dropLast ++ [fileName path ++ ending] :=
  pieces_append_of_eq (pieces_eq_concat path) (pieces_of_slash_notMem h)

theorem isAbsolute_append (path : String) {ending : String} (h : '/' ∉ ending.toList) :
    isAbsolute (path ++ ending) = isAbsolute path := by
  unfold isAbsolute
  rw [String.toList_append, List.head?_append]
  cases hpath : path.toList.head? with
  | some c => rfl
  | none =>
    cases hend : ending.toList.head? with
    | none => rfl
    | some c =>
      have ne : c ≠ '/' := by
        rintro rfl
        exact h (List.mem_of_mem_head? hend)
      simpa using ne

/-- A path begins with a slash iff an empty piece stands before others. -/
theorem isAbsolute_iff {path : String} :
    isAbsolute path = true ↔ ∃ piece rest, Text.pieces '/' path = "" :: piece :: rest := by
  unfold isAbsolute Text.pieces
  rw [beq_iff_eq]
  cases path.toList with
  | nil => simp [Text.splitAt]
  | cons c cs =>
    obtain ⟨piece, rest, hs⟩ := Text.exists_splitAt_eq_cons '/' cs
    by_cases hc : c = '/'
    · subst hc
      rw [Text.splitAt_cons_self, hs]
      exact ⟨fun _ => ⟨_, _, rfl⟩, fun _ => rfl⟩
    · rw [Text.splitAt_cons_of_ne hc hs]
      simp [hc]

theorem eq_of_pieces_eq_singleton {path piece : String} (h : Text.pieces '/' path = [piece]) :
    path = piece := by
  obtain ⟨cs, hsplit, rfl⟩ := List.map_eq_singleton_iff.mp h
  have joined := Text.joinWith_splitAt '/' path.toList
  rw [hsplit] at joined
  rw [← String.ofList_toList (s := path), ← joined]
  rfl

/-! ### The directory of a path -/

/-- A path whose last piece is a name, and not a way to stay or to go up. -/
def IsNamed (path : String) : Prop := isStay (fileName path) = false ∧ fileName path ≠ ".."

theorem exists_dropStays_append (pieces : List String) :
    ∃ stays, pieces = dropStays pieces ++ stays ∧ ∀ s ∈ stays, isStay s = true := by
  refine ⟨(pieces.reverse.takeWhile isStay).reverse, ?_, fun s hs => ?_⟩
  · rw [dropStays, ← List.reverse_append, List.takeWhile_append_dropWhile, List.reverse_reverse]
  · exact List.all_eq_true.mp List.all_takeWhile s (List.mem_reverse.mp hs)

theorem dropStays_concat {name : String} (h : isStay name = false) (pieces : List String) :
    dropStays (pieces ++ [name]) = pieces ++ [name] := by
  rw [dropStays, List.reverse_concat, List.dropWhile_cons_of_neg (by rw [h]; decide),
    List.reverse_cons, List.reverse_reverse]

/-- Of several pieces, all but the last one are the directory, apart from those at its end that lead
nowhere. -/
theorem parent?_of_pieces {path first name : String} {front : List String}
    (h : Text.pieces '/' path = first :: front ++ [name]) (notStay : isStay name = false) :
    parent? path =
      if dropStays front = [] then some (if first.isEmpty then "/" else first)
      else some (Text.joined "/" (first :: dropStays front)) := by
  unfold parent?
  rw [h, List.cons_append]
  dsimp only
  rw [dropStays_concat notStay]
  obtain ⟨piece, rest, hrest⟩ := List.exists_cons_of_ne_nil
    (List.append_ne_nil_of_right_ne_nil front (List.cons_ne_nil name []))
  rw [hrest]
  dsimp only
  rw [← hrest, List.dropLast_concat]
  cases dropStays front with
  | nil => rfl
  | cons piece rest => rfl

/-- **The directory of a path.**  A single name is in the directory where one is already.  Otherwise
the pieces of the directory, and then pieces that lead nowhere, stand before the name; and the root
directory stands for no piece at all. -/
theorem exists_parent? {path : String} (named : IsNamed path) :
    ∃ dir stays, parent? path = some dir ∧ (∀ s ∈ stays, isStay s = true) ∧
      (dir = "" ∧ Text.pieces '/' path = [fileName path] ∨
        dir ≠ "" ∧ Text.pieces '/' path = Text.pieces '/' dir ++ stays ++ [fileName path] ∨
        dir = "/" ∧ Text.pieces '/' path = "" :: stays ++ [fileName path]) := by
  obtain ⟨notStay, -⟩ := named
  have all := pieces_eq_concat path
  have slash : ∀ piece ∈ (Text.pieces '/' path).dropLast, '/' ∉ piece.toList := fun piece h =>
    slash_notMem_of_mem_pieces (List.dropLast_subset _ h)
  generalize fileName path = name at all notStay
  generalize (Text.pieces '/' path).dropLast = front at all slash
  cases front with
  | nil =>
    refine ⟨"", [], ?_, fun s hs => absurd hs List.not_mem_nil, .inl ⟨rfl, all⟩⟩
    have isName : name.isEmpty = false := (Bool.or_eq_false_iff.mp notStay).1
    rw [parent?, all]
    show (if name.isEmpty then none else some "") = some ""
    rw [isName]
    rfl
  | cons first front =>
    obtain ⟨stays, hfront, isStays⟩ := exists_dropStays_append front
    have parent := parent?_of_pieces all notStay
    rw [hfront] at all
    by_cases none_kept : dropStays front = []
    · rw [if_pos none_kept] at parent
      rw [none_kept, List.nil_append] at all
      by_cases root : first.isEmpty
      · rw [if_pos root] at parent
        rw [String.isEmpty_iff.mp root] at all
        exact ⟨"/", stays, parent, isStays, .inr (.inr ⟨rfl, all⟩)⟩
      · rw [if_neg root] at parent
        refine ⟨first, stays, parent, isStays, .inr (.inl ⟨fun h => root (by rw [h]; rfl), ?_⟩)⟩
        rw [pieces_of_slash_notMem (slash first List.mem_cons_self)]
        exact all
    · rw [if_neg none_kept] at parent
      have kept : Text.pieces '/' (Text.joined "/" (first :: dropStays front)) =
          first :: dropStays front := by
        refine pieces_joined (List.cons_ne_nil _ _) (List.forall_mem_cons.mpr
          ⟨slash first List.mem_cons_self, fun piece hpiece => ?_⟩)
        refine slash piece (List.mem_cons_of_mem first ?_)
        rw [hfront]
        exact List.mem_append_left stays hpiece
      refine ⟨_, stays, parent, isStays, .inr (.inl ⟨fun hempty => ?_, ?_⟩)⟩
      · rw [hempty] at kept
        exact none_kept (List.cons.inj kept).2.symm
      · rw [kept, List.cons_append]
        exact all

end Path
end RouteBook
