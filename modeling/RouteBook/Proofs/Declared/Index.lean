import RouteBook.Declared.TypeIndex
/-! # Names in an index

The index of some files is built declaration by declaration, but what it says about a name can be
read off the list of all declarations: the first one of that name (`TypeIndex.find?_ofFiles`).  So
further files only say something about the names that the files before them leave open
(`TypeIndex.find?_ofFiles_append`).
-/
namespace RouteBook
namespace TypeIndex

variable (index : TypeIndex) (name : String)

/-- Adding a declaration settles its name, if it was open. -/
theorem find?_add (decl : String × Shape) :
    (index.add decl).find? name = (index.find? name).or ([decl].lookup name) := by
  obtain ⟨declared, shape⟩ := decl
  unfold add
  split
  case isTrue taken =>
    -- the declaration is dropped: it could only count for its own name, which is taken
    by_cases same : name = declared
    · subst same
      obtain ⟨first, hfirst⟩ := Option.isSome_iff_exists.mp taken
      rw [hfirst]
      rfl
    · have other : (name == declared) = false := beq_false_of_ne same
      simp only [List.lookup_cons, other, List.lookup_nil, Option.or_none]
  case isFalse =>
    unfold find?
    exact List.lookup_append

theorem find?_foldl_add (decls : List (String × Shape)) :
    (decls.foldl add index).find? name = (index.find? name).or (decls.lookup name) := by
  induction decls generalizing index with
  | nil => simp only [List.foldl_nil, List.lookup_nil, Option.or_none]
  | cons decl decls ih =>
    rw [List.foldl_cons, ih, find?_add, Option.or_assoc, ← List.lookup_append,
      List.singleton_append]

/-- **The first declaration of a name counts.** -/
theorem find?_ofFiles (files : List (List Source.Item)) :
    (ofFiles files).find? name = (files.flatMap Shape.ofItems).lookup name := by
  rw [ofFiles, find?_foldl_add]
  rfl

/-- Further files declare what the files before them leave open. -/
theorem find?_ofFiles_append (fs gs : List (List Source.Item)) :
    (ofFiles (fs ++ gs)).find? name = ((ofFiles fs).find? name).or ((ofFiles gs).find? name) := by
  simp only [find?_ofFiles, List.flatMap_append, List.lookup_append]

/-- Without the declarations of one name, the others count as before. -/
theorem lookup_filter_ne (decls : List (String × Shape)) (n : String) :
    (decls.filter (·.1 != name)).lookup n = if n = name then none else decls.lookup n := by
  induction decls with
  | nil => simp
  | cons decl decls ih =>
    obtain ⟨declared, shape⟩ := decl
    by_cases gone : declared = name
    · subst gone
      rw [List.filter_cons_of_neg (by simp), ih]
      by_cases same : n = declared
      · rw [if_pos same, if_pos same]
      · rw [if_neg same, if_neg same, List.lookup_cons, beq_false_of_ne same]
    · rw [List.filter_cons_of_pos (by simpa using gone), List.lookup_cons, List.lookup_cons, ih]
      by_cases same : n = declared
      · subst same
        simp only [beq_self_eq_true, if_neg gone]
      · simp only [beq_false_of_ne same]

/-- Some index says what it is told about one name, and the same as before about all others. -/
theorem exists_redeclared (shape? : Option Shape) :
    ∃ other : TypeIndex, other.find? name = shape? ∧
      ∀ n, n ≠ name → other.find? n = index.find? n := by
  cases shape? with
  | some shape =>
    refine ⟨⟨(name, shape) :: index.shapes⟩, ?_, fun n hn => ?_⟩
    · simp only [find?, List.lookup_cons, beq_self_eq_true]
    · simp only [find?, List.lookup_cons, beq_false_of_ne hn]
  | none =>
    refine ⟨⟨index.shapes.filter (·.1 != name)⟩, ?_, fun n hn => ?_⟩
    · rw [find?, lookup_filter_ne, if_pos rfl]
    · rw [find?, lookup_filter_ne, if_neg hn, find?]

end TypeIndex
end RouteBook
