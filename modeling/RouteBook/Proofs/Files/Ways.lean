import RouteBook.Files.Tree
/-! # What stands at the end of a way

A way of names leads to a file, to a directory, or to nothing.  What it leads through is a
directory, so a way never goes on behind a file (`isDirectoryAt_of_append`).

A tree that is put at the end of a way is found there, with all that it holds.  Elsewhere it changes
nothing: a way that does not lead through the new place ends at the same file as before, or at none
(`textAt?_put_of_not_isPrefix`), and directories stay directories
(`isDirectoryAt_put_of_not_isPrefix`).
-/
namespace RouteBook

namespace FileTree

/-- The text of the file to which a way leads, if it leads to a file. -/
def textAt? (tree : FileTree) (way : List String) : Option (Option String) :=
  match tree.at? way with
  | some (file text) => some text
  | _ => none

/-- A way that leads to a directory. -/
def IsDirectoryAt (tree : FileTree) (way : List String) : Prop :=
  ∃ entries, tree.at? way = some (directory entries)

variable {tree new : FileTree} {way other : List String}

theorem textAt?_eq_some_iff {text : Option String} :
    tree.textAt? way = some text ↔ tree.at? way = some (file text) := by
  unfold textAt?
  split
  · rename_i found
    rw [found, Option.some.injEq, Option.some.injEq, file.injEq]
  · rename_i none_found
    refine ⟨fun h => ?_, fun h => absurd h (none_found text)⟩
    cases h

theorem textAt?_of_isDirectoryAt (h : tree.IsDirectoryAt way) : tree.textAt? way = none := by
  obtain ⟨entries, found⟩ := h
  rw [textAt?, found]

theorem textAt?_of_at?_eq_none (h : tree.at? way = none) : tree.textAt? way = none := by
  rw [textAt?, h]

/-- Something stands at the end of a way iff a directory or a file does. -/
theorem isSome_at?_iff :
    (tree.at? way).isSome ↔ tree.IsDirectoryAt way ∨ (tree.textAt? way).isSome := by
  unfold IsDirectoryAt textAt?
  cases tree.at? way with
  | none => simp
  | some found =>
    cases found with
    | file text => simp
    | directory entries => simp

/-! ### Ways that go on -/

theorem at?_append (tree : FileTree) (way further : List String) :
    tree.at? (way ++ further) = (tree.at? way).bind (at? further) := by
  induction way generalizing tree with
  | nil => rfl
  | cons name way ih =>
    rw [List.cons_append, at?, at?]
    cases tree.entry? name with
    | none => rfl
    | some inner => exact ih inner

theorem at?_file_of_ne_nil {text : Option String} (h : way ≠ []) : (file text).at? way = none := by
  cases way with
  | nil => exact absurd rfl h
  | cons name way => rfl

/-- **What a way leads through is a directory.** -/
theorem isDirectoryAt_of_append {further : List String} (ne : further ≠ [])
    (h : (tree.at? (way ++ further)).isSome) : tree.IsDirectoryAt way := by
  rw [at?_append] at h
  unfold IsDirectoryAt
  cases found : tree.at? way with
  | none =>
    rw [found] at h
    cases h
  | some inner =>
    cases inner with
    | file text =>
      rw [found, Option.bind_some, at?_file_of_ne_nil ne] at h
      cases h
    | directory entries => exact ⟨entries, rfl⟩

theorem isDirectoryAt_of_isPrefix (h : tree.IsDirectoryAt other) (le : way <+: other) :
    tree.IsDirectoryAt way := by
  obtain ⟨further, rfl⟩ := le
  by_cases ne : further = []
  · rwa [ne, List.append_nil] at h
  · obtain ⟨entries, found⟩ := h
    exact isDirectoryAt_of_append ne (by rw [found]; rfl)

/-! ### Putting a tree somewhere -/

theorem entry?_put_self (tree : FileTree) (name : String) (names : List String) (new : FileTree) :
    entry? name (tree.put (name :: names) new) =
      some (put ((tree.entry? name).getD empty) names new) := by
  cases tree with
  | file text => exact lookup_insertPair_self name _ []
  | directory entries => exact lookup_insertPair_self name _ entries

theorem entry?_put_of_ne {name key : String} (h : name ≠ key) (tree : FileTree)
    (names : List String) (new : FileTree) :
    entry? name (tree.put (key :: names) new) = entry? name tree := by
  cases tree with
  | file text => exact lookup_insertPair_of_ne h _ []
  | directory entries => exact lookup_insertPair_of_ne h _ entries

theorem at?_put_append (tree : FileTree) (way further : List String) (new : FileTree) :
    (tree.put way new).at? (way ++ further) = new.at? further := by
  rw [at?_append, at?_put]
  rfl

/-- Before the new place, there are directories. -/
theorem isDirectoryAt_put_of_append (tree : FileTree) {further : List String} (ne : further ≠ [])
    (new : FileTree) : (tree.put (way ++ further) new).IsDirectoryAt way :=
  isDirectoryAt_of_append ne (by rw [at?_put]; rfl)

/-- Beside the new place, nothing changes. -/
theorem at?_put_of_apart (before : ¬ way <+: other) (behind : ¬ other <+: way) :
    (tree.put way new).at? other = tree.at? other := by
  induction way generalizing tree other with
  | nil => exact absurd List.nil_prefix before
  | cons key way ih =>
    cases other with
    | nil => exact absurd List.nil_prefix behind
    | cons name other =>
      by_cases same : name = key
      · subst same
        rw [List.cons_prefix_cons] at before behind
        have inner (below : FileTree) : (below.put way new).at? other = below.at? other :=
          ih (fun le => before ⟨rfl, le⟩) (fun le => behind ⟨rfl, le⟩)
        rw [at?, entry?_put_self, Option.bind_some, inner, at?]
        cases tree.entry? name with
        | some found => rfl
        | none =>
          -- in the empty directory that is made here, no way leads anywhere
          cases other with
          | nil => exact absurd ⟨rfl, List.nil_prefix⟩ behind
          | cons next other => rfl
      · rw [at?, entry?_put_of_ne same, at?]

/-- **Nothing is lost beside the new place**: directories stay directories. -/
theorem isDirectoryAt_put_of_not_isPrefix (h : ¬ way <+: other) (there : tree.IsDirectoryAt other) :
    (tree.put way new).IsDirectoryAt other := by
  by_cases le : other <+: way
  · obtain ⟨further, rfl⟩ := le
    have ne : further ≠ [] := by
      rintro rfl
      exact h ⟨[], by simp⟩
    exact isDirectoryAt_put_of_append tree ne new
  · obtain ⟨entries, found⟩ := there
    exact ⟨entries, (at?_put_of_apart h le).trans found⟩

/-- **The files beside the new place are those from before**, provided that the new place is in a
directory that was there. -/
theorem textAt?_put_of_not_isPrefix {name : String} (parent : tree.IsDirectoryAt way)
    (h : ¬ way ++ [name] <+: other) :
    (tree.put (way ++ [name]) new).textAt? other = tree.textAt? other := by
  by_cases le : other <+: way ++ [name]
  · -- on the way to the new place there were directories, and there still are
    have before : other <+: way := by
      rcases List.prefix_concat_iff.mp le with rfl | le
      · exact absurd (List.prefix_refl _) h
      · exact le
    have there := isDirectoryAt_of_isPrefix parent before
    rw [textAt?_of_isDirectoryAt there,
      textAt?_of_isDirectoryAt (isDirectoryAt_put_of_not_isPrefix h there)]
  · rw [textAt?, textAt?, at?_put_of_apart h le]

end FileTree
end RouteBook
