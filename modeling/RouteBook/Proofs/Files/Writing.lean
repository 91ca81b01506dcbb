import RouteBook.Proofs.Files.Paths
import RouteBook.Proofs.Files.Ways
import RouteBook.Proofs.Steps
/-! # Writing files

A path is followed from directory to directory, and it ends where its pieces say, if something is
there at all (`step_of_isDirectoryAt`).  So a tree in which nothing has become something else is
followed as before (`Grows.foldlM_step`).

Making a directory makes what is missing on the way to it and touches no file (`madeWay`).  After a
file has been written, its text stands at the end of its way, and every other file is what it was
(`written_of_write`).
-/
namespace RouteBook
namespace Files

open FileTree

/-! ### Following a path -/

/-- Where a piece leads to, with every name on the way taken for a directory. -/
def next (way : List String) (piece : String) : List String :=
  if Path.isStay piece then way else if piece == ".." then way.dropLast else way ++ [piece]

theorem wayOf_eq (files : Files) (path : String) :
    files.wayOf path = (Text.pieces '/' path).foldl next (files.start path) := rfl

theorem next_of_isStay {way : List String} {piece : String} (h : Path.isStay piece = true) :
    next way piece = way := if_pos h

theorem next_of_isName {way : List String} {piece : String} (notStay : Path.isStay piece = false)
    (notUp : piece ≠ "..") : next way piece = way ++ [piece] := by
  rw [next, if_neg (by rw [notStay]; decide), if_neg (by simpa using notUp)]

variable {root root' : FileTree} {way way' : List String} {piece : String}

/-- **A step from a directory** leads where its piece says, if something is there. -/
theorem step_of_isDirectoryAt (here : root.IsDirectoryAt way) (piece : String) :
    step root way piece =
      if (root.at? (next way piece)).isSome then .ok (next way piece) else .error .notFound := by
  obtain ⟨entries, found⟩ := here
  unfold step next
  rw [found]
  dsimp only
  by_cases stay : Path.isStay piece
  · rw [if_pos stay, if_pos stay, found]
    rfl
  · rw [if_neg stay, if_neg stay]
    by_cases up : piece == ".."
    · obtain ⟨above, habove⟩ :=
        isDirectoryAt_of_isPrefix ⟨entries, found⟩ (List.dropLast_prefix way)
      rw [if_pos up, if_pos up, habove]
      rfl
    · rw [if_neg up, if_neg up, at?_append, found]
      show _ = if ((entries.lookup piece).bind (at? [])).isSome then _ else _
      cases entries.lookup piece with
      | none => rfl
      | some inner => rfl

theorem isDirectoryAt_of_step (h : step root way piece = .ok way') : root.IsDirectoryAt way := by
  unfold step at h
  split at h
  · cases h
  · cases h
  · rename_i entries found
    exact ⟨entries, found⟩

theorem step_eq_ok_iff :
    step root way piece = .ok way' ↔
      root.IsDirectoryAt way ∧ (root.at? (next way piece)).isSome ∧ next way piece = way' := by
  constructor
  · intro h
    have here := isDirectoryAt_of_step h
    rw [step_of_isDirectoryAt here] at h
    split at h
    · rename_i there
      cases h
      exact ⟨here, there, rfl⟩
    · cases h
  · rintro ⟨here, there, rfl⟩
    rw [step_of_isDirectoryAt here, if_pos there]

/-- Where steps lead to is read off the pieces. -/
theorem foldl_next_of_foldlM_step {pieces : List String}
    (h : pieces.foldlM (step root) way = .ok way') : pieces.foldl next way = way' := by
  induction pieces generalizing way with
  | nil =>
    cases h
    rfl
  | cons piece pieces ih =>
    rw [List.foldlM_cons] at h
    obtain ⟨between, first, rest⟩ := bind_eq_ok h
    obtain ⟨-, -, rfl⟩ := step_eq_ok_iff.mp first
    exact ih rest

/-- Pieces that stay lead from a directory to itself. -/
theorem foldlM_step_of_isStay {stays : List String} (here : root.IsDirectoryAt way)
    (h : ∀ s ∈ stays, Path.isStay s = true) : stays.foldlM (step root) way = .ok way := by
  induction stays with
  | nil => rfl
  | cons s stays ih =>
    obtain ⟨hs, rest⟩ := List.forall_mem_cons.mp h
    have first : step root way s = .ok way :=
      step_eq_ok_iff.mpr ⟨here, isSome_at?_iff.mpr (.inl (by rwa [next_of_isStay hs])),
        next_of_isStay hs⟩
    rw [List.foldlM_cons, first]
    exact ih rest

/-- A tree in which everything that was there is still there, as what it was. -/
structure Grows (old new : FileTree) : Prop where
  directory : ∀ way, old.IsDirectoryAt way → new.IsDirectoryAt way
  file : ∀ way, (old.textAt? way).isSome → (new.textAt? way).isSome

theorem Grows.refl (tree : FileTree) : Grows tree tree := ⟨fun _ h => h, fun _ h => h⟩

theorem Grows.trans {first second third : FileTree} (h : Grows first second)
    (h' : Grows second third) : Grows first third :=
  ⟨fun way there => h'.directory way (h.directory way there),
    fun way there => h'.file way (h.file way there)⟩

theorem Grows.isSome_at? {old new : FileTree} (h : Grows old new) (there : (old.at? way).isSome) :
    (new.at? way).isSome := by
  obtain found | found := isSome_at?_iff.mp there
  · exact isSome_at?_iff.mpr (.inl (h.directory way found))
  · exact isSome_at?_iff.mpr (.inr (h.file way found))

/-- **What could be followed before can be followed still.** -/
theorem Grows.foldlM_step {old new : FileTree} (h : Grows old new) {pieces : List String}
    (ok : pieces.foldlM (step old) way = .ok way') : pieces.foldlM (step new) way = .ok way' := by
  induction pieces generalizing way with
  | nil => exact ok
  | cons piece pieces ih =>
    rw [List.foldlM_cons] at ok ⊢
    obtain ⟨between, first, rest⟩ := bind_eq_ok ok
    obtain ⟨here, there, rfl⟩ := step_eq_ok_iff.mp first
    have again : step new way piece = .ok (next way piece) :=
      step_eq_ok_iff.mpr ⟨h.directory way here, h.isSome_at? there, rfl⟩
    rw [again]
    exact ih rest

/-! ### Making directories -/

/-- What becomes of a tree when a directory is made along some pieces: no file is touched, and the
pieces lead to the directory. -/
structure MadeWay (root : FileTree) (way pieces : List String) (root' : FileTree)
    (way' : List String) : Prop where
  textAt? : ∀ other, root'.textAt? other = root.textAt? other
  directory : ∀ other, root.IsDirectoryAt other → root'.IsDirectoryAt other
  arrives : root'.IsDirectoryAt way'
  follow : pieces.foldlM (step root') way = .ok way'

theorem MadeWay.grows {pieces : List String} (h : MadeWay root way pieces root' way') :
    Grows root root' :=
  ⟨h.directory, fun other there => by rwa [h.textAt?]⟩

theorem textAt?_empty (way : List String) : FileTree.empty.textAt? way = none := by
  cases way with
  | nil => rfl
  | cons name way => rfl

/-- An empty directory that is put where nothing was holds no file. -/
theorem textAt?_put_empty {name : String} (parent : root.IsDirectoryAt way)
    (missing : root.at? (way ++ [name]) = none) (other : List String) :
    (root.put (way ++ [name]) .empty).textAt? other = root.textAt? other := by
  by_cases le : way ++ [name] <+: other
  · obtain ⟨further, rfl⟩ := le
    have nothing : root.at? (way ++ [name] ++ further) = none := by
      rw [at?_append, missing]
      rfl
    rw [textAt?_of_at?_eq_none nothing, FileTree.textAt?, at?_put_append]
    exact textAt?_empty further
  · exact textAt?_put_of_not_isPrefix parent le

theorem isDirectoryAt_put_of_at?_eq_none (new : FileTree) (missing : root.at? way = none)
    (other : List String) (there : root.IsDirectoryAt other) :
    (root.put way new).IsDirectoryAt other := by
  refine isDirectoryAt_put_of_not_isPrefix ?_ there
  rintro ⟨further, rfl⟩
  obtain ⟨entries, found⟩ := there
  rw [at?_append, missing] at found
  cases found

theorem next_eq_append_of_at?_eq_none (here : root.IsDirectoryAt way)
    (missing : root.at? (next way piece) = none) : next way piece = way ++ [piece] := by
  unfold next at missing ⊢
  by_cases stay : Path.isStay piece
  · obtain ⟨entries, found⟩ := here
    rw [if_pos stay, found] at missing
    cases missing
  · rw [if_neg stay] at missing ⊢
    by_cases up : piece == ".."
    · obtain ⟨entries, found⟩ := isDirectoryAt_of_isPrefix here (List.dropLast_prefix way)
      rw [if_pos up, found] at missing
      cases missing
    · exact if_neg up

/-- **Making a directory** makes what is missing on the way and touches no file. -/
theorem madeWay {pieces : List String} (here : root.IsDirectoryAt way)
    (h : makeWay root way pieces = .ok (root', way')) : MadeWay root way pieces root' way' := by
  induction pieces generalizing root way with
  | nil =>
    cases h
    exact ⟨fun _ => rfl, fun _ there => there, here, rfl⟩
  | cons piece pieces ih =>
    unfold makeWay at h
    rw [step_of_isDirectoryAt here] at h
    cases found : root.at? (next way piece) with
    | some inner =>
      have there : (root.at? (next way piece)).isSome := by rw [found]; rfl
      rw [if_pos there] at h
      dsimp only at h
      rw [found] at h
      cases inner with
      | file text =>
        -- a file is no way to go on, and no directory to end at
        cases pieces with
        | nil => cases h
        | cons piece pieces =>
          dsimp only at h
          rw [makeWay, step, found] at h
          cases h
      | directory entries =>
        obtain ⟨texts, directories, arrives, follow⟩ := ih ⟨entries, found⟩ h
        have first : step root' way piece = .ok (next way piece) :=
          step_eq_ok_iff.mpr ⟨directories way here,
            isSome_at?_iff.mpr (.inl (directories _ ⟨entries, found⟩)), rfl⟩
        refine ⟨texts, directories, arrives, ?_⟩
        rw [List.foldlM_cons, first]
        exact follow
    | none =>
      have nothing : ¬ (root.at? (next way piece)).isSome := by rw [found]; decide
      have behind := next_eq_append_of_at?_eq_none here found
      rw [if_neg nothing] at h
      dsimp only at h
      rw [behind] at found
      have made : (root.put (way ++ [piece]) .empty).IsDirectoryAt (way ++ [piece]) :=
        ⟨[], at?_put root _ _⟩
      obtain ⟨texts, directories, arrives, follow⟩ := ih made h
      have kept := isDirectoryAt_put_of_at?_eq_none .empty found
      have first : step root' way piece = .ok (way ++ [piece]) :=
        step_eq_ok_iff.mpr ⟨directories way (kept way here),
          isSome_at?_iff.mpr (.inl (behind ▸ directories _ made)), behind⟩
      refine ⟨fun other => (texts other).trans (textAt?_put_empty here found other),
        fun other there => directories other (kept other there), arrives, ?_⟩
      rw [List.foldlM_cons, first]
      exact follow

theorem isDirectoryAt_start {files : Files} (here : files.root.IsDirectoryAt files.workingDirectory)
    (path : String) : files.root.IsDirectoryAt (files.start path) := by
  unfold start
  split
  · exact isDirectoryAt_of_isPrefix here List.nil_prefix
  · exact here

/-- What becomes of a file tree when the directory of a path is made: no file is touched, and the
pieces before the name of the file lead to that directory. -/
structure Prepared (files : Files) (path : String) (files' : Files) (dir : List String) : Prop where
  workingDirectory : files'.workingDirectory = files.workingDirectory
  textAt? : ∀ way, files'.root.textAt? way = files.root.textAt? way
  directory : ∀ way, files.root.IsDirectoryAt way → files'.root.IsDirectoryAt way
  arrives : files'.root.IsDirectoryAt dir
  follow : (Text.pieces '/' path).dropLast.foldlM (step files'.root) (files'.start path) = .ok dir
  parent : ∃ parent, Path.parent? path = some parent ∧
    (parent = "" ∧ dir = files'.workingDirectory ∨ parent ≠ "" ∧ files'.locate parent = .ok dir)

/-- Making a directory of which the path is known leads there. -/
theorem madeWay_of_makeDirectory {files files' : Files} {dir : String}
    (here : files.root.IsDirectoryAt files.workingDirectory) (ne : dir ≠ "")
    (h : files.makeDirectory dir = .ok files') :
    files'.workingDirectory = files.workingDirectory ∧
      ∃ way, MadeWay files.root (files.start dir) (Text.pieces '/' dir) files'.root way := by
  unfold makeDirectory at h
  rw [Path.isEmpty_eq_false ne] at h
  obtain ⟨⟨root', way⟩, made, h⟩ := bind_eq_ok h
  cases h
  exact ⟨rfl, way, madeWay (isDirectoryAt_start here dir) made⟩

theorem start_eq_of_isAbsolute {files files' : Files} {path dir : String}
    (wd : files'.workingDirectory = files.workingDirectory)
    (h : Path.isAbsolute dir = Path.isAbsolute path) : files'.start path = files.start dir := by
  unfold start
  rw [wd, h]

theorem isAbsolute_of_pieces_append {path dir name : String} {stays : List String} (ne : dir ≠ "")
    (h : Text.pieces '/' path = Text.pieces '/' dir ++ stays ++ [name]) :
    Path.isAbsolute dir = Path.isAbsolute path := by
  rw [Bool.eq_iff_iff, Path.isAbsolute_iff, Path.isAbsolute_iff, h]
  constructor
  · rintro ⟨piece, rest, hdir⟩
    exact ⟨piece, rest ++ stays ++ [name], by rw [hdir]; rfl⟩
  · rintro ⟨piece, rest, hpath⟩
    cases hdir : Text.pieces '/' dir with
    | nil => exact absurd hdir (Path.pieces_ne_nil dir)
    | cons first pieces =>
      cases pieces with
      | nil =>
        rw [hdir] at hpath
        have empty : first = "" := (List.cons.inj hpath).1
        exact absurd ((Path.eq_of_pieces_eq_singleton hdir).trans empty) ne
      | cons second pieces =>
        rw [hdir] at hpath
        exact ⟨second, pieces, by rw [(List.cons.inj hpath).1]⟩

/-- **The directory of a path can be made** without touching a file, and then the path leads
there. -/
theorem exists_prepared {files : Files} {path : String} (named : Path.IsNamed path)
    (here : files.root.IsDirectoryAt files.workingDirectory) :
    ∃ dir, Path.parent? path = some dir ∧ ∀ files', files.makeDirectory dir = .ok files' →
      ∃ way, Prepared files path files' way := by
  obtain ⟨dir, stays, parent, isStays, shape⟩ := Path.exists_parent? named
  refine ⟨dir, parent, fun files' made => ?_⟩
  obtain ⟨rfl, pieces⟩ | ⟨ne, pieces⟩ | ⟨rfl, pieces⟩ := shape
  · -- a single name is in the working directory
    cases made
    have relative : Path.isAbsolute path = false := by
      rw [← Bool.not_eq_true, Path.isAbsolute_iff, pieces]
      rintro ⟨piece, rest, h⟩
      exact List.cons_ne_nil piece rest (List.cons.inj h).2.symm
    refine ⟨files.workingDirectory, rfl, fun _ => rfl, fun _ there => there, here, ?_,
      "", parent, .inl ⟨rfl, rfl⟩⟩
    rw [pieces, start, relative]
    rfl
  · obtain ⟨wd, way, made⟩ := madeWay_of_makeDirectory here ne made
    have start := start_eq_of_isAbsolute wd (isAbsolute_of_pieces_append ne pieces)
    refine ⟨way, wd, made.textAt?, made.directory, made.arrives, ?_, dir, parent, .inr ⟨ne, ?_⟩⟩
    · rw [pieces, List.dropLast_concat, List.foldlM_append, start, made.follow]
      exact foldlM_step_of_isStay made.arrives isStays
    · rw [locate, Path.isEmpty_eq_false ne, start_eq_of_isAbsolute wd rfl]
      exact made.follow
  · -- the root directory is reached by every path with a slash before it
    obtain ⟨wd, way, made⟩ := madeWay_of_makeDirectory here (by decide) made
    have follow : (["", ""] : List String).foldlM (step files'.root) [] = .ok way := made.follow
    obtain rfl : [] = way := foldl_next_of_foldlM_step follow
    have absolute : Path.isAbsolute path = true := by
      obtain ⟨piece, rest, h⟩ := List.exists_cons_of_ne_nil
        (List.append_ne_nil_of_right_ne_nil stays (List.cons_ne_nil (Path.fileName path) []))
      rw [Path.isAbsolute_iff, pieces, List.cons_append, h]
      exact ⟨piece, rest, rfl⟩
    have start : files'.start path = [] := if_pos absolute
    refine ⟨[], wd, made.textAt?, made.directory, made.arrives, ?_, "/", parent,
      .inr ⟨by decide, ?_⟩⟩
    · rw [pieces, List.dropLast_concat, start]
      exact foldlM_step_of_isStay made.arrives (List.forall_mem_cons.mpr ⟨rfl, isStays⟩)
    · exact follow

/-! ### Writing a file -/

/-- What becomes of a file tree when a file is written: it is there with its text, every other
file is what it was, and its path leads to it. -/
structure Written (files : Files) (path text : String) (files' : Files) : Prop where
  workingDirectory : files'.workingDirectory = files.workingDirectory
  textAt? : ∀ way, files'.root.textAt? way =
    if way = files.wayOf path then some (some text) else files.root.textAt? way
  directory : ∀ way, files.root.IsDirectoryAt way → files'.root.IsDirectoryAt way
  locate : files'.locate path = .ok (files.wayOf path)

theorem Written.grows {files files' : Files} {path text : String}
    (h : Written files path text files') : Grows files.root files'.root := by
  refine ⟨h.directory, fun way there => ?_⟩
  rw [h.textAt?]
  split
  · rfl
  · exact there

/-- A file in a directory changes no other file, unless a directory stood in its place. -/
theorem textAt?_put_file (text : Option String) {name : String} (parent : root.IsDirectoryAt way)
    (free : ¬ root.IsDirectoryAt (way ++ [name])) (other : List String) :
    (root.put (way ++ [name]) (.file text)).textAt? other =
      if other = way ++ [name] then some text else root.textAt? other := by
  split
  · rename_i same
    rw [same, FileTree.textAt?, at?_put]
  · rename_i apart
    by_cases le : way ++ [name] <+: other
    · -- behind a file there is nothing, and there was nothing before
      obtain ⟨further, rfl⟩ := le
      have ne : further ≠ [] := by
        rintro rfl
        exact apart (List.append_nil _)
      have nothing : root.at? (way ++ [name] ++ further) = none := by
        rw [← Option.isNone_iff_eq_none, ← Option.not_isSome]
        simpa using fun there => free (isDirectoryAt_of_append ne there)
      rw [textAt?_of_at?_eq_none nothing, FileTree.textAt?, at?_put_append,
        at?_file_of_ne_nil ne]
    · exact textAt?_put_of_not_isPrefix parent le

theorem isDirectoryAt_put_of_free (new : FileTree) (free : ¬ root.IsDirectoryAt way)
    (other : List String) (there : root.IsDirectoryAt other) :
    (root.put way new).IsDirectoryAt other :=
  isDirectoryAt_put_of_not_isPrefix (fun le => free (isDirectoryAt_of_isPrefix there le)) there

/-- Where the file goes when its directory is there. -/
theorem put_of_writeFile {files files' : Files} {path text : String} {dir : List String}
    (named : Path.IsNamed path) (here : files.root.IsDirectoryAt dir)
    (arrives : files.locate path = step files.root dir (Path.fileName path))
    (parent : ∃ parent, Path.parent? path = some parent ∧
      (parent = "" ∧ dir = files.workingDirectory ∨ parent ≠ "" ∧ files.locate parent = .ok dir))
    (h : files.writeFile path text = .ok files') :
    ¬ files.root.IsDirectoryAt (dir ++ [Path.fileName path]) ∧
      files' = { files with
        root := files.root.put (dir ++ [Path.fileName path]) (.file (some text)) } := by
  unfold writeFile at h
  rw [arrives, step_of_isDirectoryAt here, next_of_isName named.1 named.2] at h
  cases found : files.root.at? (dir ++ [Path.fileName path]) with
  | some inner =>
    rw [found, if_pos (by rfl)] at h
    dsimp only at h
    rw [found] at h
    cases inner with
    | file old =>
      cases h
      refine ⟨?_, rfl⟩
      rintro ⟨entries, hentries⟩
      rw [found] at hentries
      cases hentries
    | directory entries => cases h
  | none =>
    rw [found, if_neg (by decide)] at h
    obtain ⟨above, habove, hdir⟩ := parent
    rw [habove] at h
    refine ⟨?_, ?_⟩
    · rintro ⟨entries, hentries⟩
      rw [found] at hentries
      cases hentries
    · obtain ⟨rfl, rfl⟩ | ⟨ne, hlocate⟩ := hdir
      · cases h
        rfl
      · dsimp only at h
        split at h
        · cases h
        · exact absurd (Option.some.inj ‹some above = some ""›) ne
        · rename_i same
          rw [← Option.some.inj same, hlocate] at h
          cases h
          rfl

/-- **What writing a file does.** -/
theorem written_of_write {files files' : Files} {path text : String} (named : Path.IsNamed path)
    (here : files.root.IsDirectoryAt files.workingDirectory)
    (h : files.write path text = .ok files') : Written files path text files' := by
  obtain ⟨dir, parent, prepare⟩ := exists_prepared named here
  unfold write at h
  rw [parent] at h
  obtain ⟨between, made, wrote⟩ := bind_eq_ok h
  obtain ⟨way, prepared⟩ := prepare between (eq_ok_of_mapError made)
  have wrote := eq_ok_of_mapError wrote
  have start : between.start path = files.start path :=
    start_eq_of_isAbsolute prepared.workingDirectory rfl
  have place : files.wayOf path = way ++ [Path.fileName path] := by
    rw [wayOf_eq, Path.pieces_eq_concat, List.foldl_append, ← start,
      foldl_next_of_foldlM_step prepared.follow]
    exact next_of_isName named.1 named.2
  have isPath : path ≠ "" := by
    rintro rfl
    exact absurd named.1 (by decide)
  -- the path is followed to the directory first, whatever stands there by then
  have follow {root : FileTree} (grown : Grows between.root root) :
      (Text.pieces '/' path).foldlM (step root) (between.start path) =
        step root way (Path.fileName path) := by
    rw [Path.pieces_eq_concat, List.foldlM_append, grown.foldlM_step prepared.follow]
    show List.foldlM (step root) way [Path.fileName path] = _
    rw [List.foldlM_cons]
    exact bind_pure (step root way (Path.fileName path))
  have arrives : between.locate path = step between.root way (Path.fileName path) := by
    rw [locate, Path.isEmpty_eq_false isPath]
    exact follow (Grows.refl _)
  obtain ⟨free, rfl⟩ := put_of_writeFile named prepared.arrives arrives prepared.parent wrote
  have texts := textAt?_put_file (some text) prepared.arrives free
  have directories := isDirectoryAt_put_of_free (.file (some text)) free
  have grown : Grows between.root
      (between.root.put (way ++ [Path.fileName path]) (.file (some text))) := by
    refine ⟨directories, fun other there => ?_⟩
    rw [texts]
    split
    · rfl
    · exact there
  refine ⟨prepared.workingDirectory, fun other => ?_, fun other there => ?_, ?_⟩
  · rw [texts, place, prepared.textAt?]
  · exact directories other (prepared.directory other there)
  · rw [locate, Path.isEmpty_eq_false isPath, place]
    show (Text.pieces '/' path).foldlM (step _) (between.start path) = _
    rw [follow grown]
    refine step_eq_ok_iff.mpr ⟨grown.directory way prepared.arrives, ?_,
      next_of_isName named.1 named.2⟩
    rw [next_of_isName named.1 named.2, at?_put]
    rfl

end Files
end RouteBook
