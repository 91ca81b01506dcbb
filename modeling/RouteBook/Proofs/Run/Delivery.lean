import RouteBook.Proofs.Files.Below
import RouteBook.Run
/-! # What a run writes

Rendered files are written one after another, each over what was in its place.  So in the end the
last one written in a place is there (`allWritten_of_writeAll`), and every file in another place
is what it was. Each of them can be read back iff those in one place have one text
(`readText_writeAll_iff`).
-/
namespace RouteBook
namespace Run

open FileTree

/-- The last one of some files whose path leads to a place. -/
def lastAt? (files : Files) (way : List String) (rendered : List RenderedFile) :
    Option RenderedFile :=
  rendered.reverse.find? fun f => files.wayOf f.path == way

theorem lastAt?_cons (files : Files) (way : List String) (f : RenderedFile)
    (rendered : List RenderedFile) :
    lastAt? files way (f :: rendered) =
      (lastAt? files way rendered).or (if files.wayOf f.path = way then some f else none) := by
  rw [lastAt?, List.reverse_cons, List.find?_append, List.find?_singleton]
  simp only [beq_iff_eq]
  rfl

theorem lastAt?_eq_some {files : Files} {way : List String} {rendered : List RenderedFile}
    {f : RenderedFile} (h : lastAt? files way rendered = some f) :
    f ∈ rendered ∧ files.wayOf f.path = way :=
  ⟨List.mem_reverse.mp (List.mem_of_find?_eq_some h), by simpa using List.find?_some h⟩

theorem lastAt?_eq_none_iff {files : Files} {way : List String} {rendered : List RenderedFile} :
    lastAt? files way rendered = none ↔ ∀ f ∈ rendered, files.wayOf f.path ≠ way := by
  simp [lastAt?]

/-- What becomes of a file tree when files are written one after another. -/
structure AllWritten (files : Files) (rendered : List RenderedFile) (files' : Files) : Prop where
  workingDirectory : files'.workingDirectory = files.workingDirectory
  textAt? : ∀ way, files'.root.textAt? way =
    ((lastAt? files way rendered).map fun f => some f.content).or (files.root.textAt? way)
  directory : ∀ way, files.root.IsDirectoryAt way → files'.root.IsDirectoryAt way
  locate : ∀ f ∈ rendered, files'.locate f.path = .ok (files.wayOf f.path)

theorem AllWritten.grows {files files' : Files} {rendered : List RenderedFile}
    (h : AllWritten files rendered files') : Files.Grows files.root files'.root := by
  refine ⟨h.directory, fun way there => ?_⟩
  rw [h.textAt?, Option.isSome_or, there, Bool.or_true]

theorem wayOf_eq_of_workingDirectory {files files' : Files}
    (h : files'.workingDirectory = files.workingDirectory) (path : String) :
    files'.wayOf path = files.wayOf path := by
  rw [Files.wayOf_eq, Files.wayOf_eq, Files.start_eq_of_isAbsolute h rfl]

theorem locate_of_grows {files files' : Files} {path : String} {way : List String}
    (grown : Files.Grows files.root files'.root)
    (wd : files'.workingDirectory = files.workingDirectory) (h : files.locate path = .ok way) :
    files'.locate path = .ok way := by
  unfold Files.locate at h ⊢
  split at h
  · cases h
  · rename_i notEmpty
    rw [if_neg notEmpty, Files.start_eq_of_isAbsolute wd rfl]
    exact grown.foldlM_step h

/-- **Files that are written one after another** stand where they were written, the last one in a
place over all before it. -/
theorem allWritten_of_writeAll {files files' : Files} {rendered : List RenderedFile}
    (named : ∀ f ∈ rendered, Path.IsNamed f.path)
    (here : files.root.IsDirectoryAt files.workingDirectory)
    (h : writeAll files rendered = .ok files') : AllWritten files rendered files' := by
  induction rendered generalizing files with
  | nil =>
    cases h
    exact ⟨rfl, fun _ => rfl, fun _ there => there, fun f hf => absurd hf List.not_mem_nil⟩
  | cons f rendered ih =>
    obtain ⟨first_named, named⟩ := List.forall_mem_cons.mp named
    rw [writeAll, List.foldlM_cons] at h
    obtain ⟨between, wrote, rest⟩ := bind_eq_ok h
    have first := Files.written_of_write first_named here wrote
    have wd := first.workingDirectory
    have here' : between.root.IsDirectoryAt between.workingDirectory := by
      rw [wd]
      exact first.directory _ here
    have rest := ih named here' rest
    have places : ∀ path, between.wayOf path = files.wayOf path := wayOf_eq_of_workingDirectory wd
    refine ⟨rest.workingDirectory.trans wd, fun way => ?_, fun way there => ?_, ?_⟩
    · have same : lastAt? between way rendered = lastAt? files way rendered := by
        simp only [lastAt?, places]
      rw [rest.textAt?, first.textAt?, same, lastAt?_cons]
      cases lastAt? files way rendered with
      | some last => rfl
      | none =>
        by_cases here : files.wayOf f.path = way
        · rw [if_pos here, if_pos here.symm]
          rfl
        · rw [if_neg here, if_neg (Ne.symm here)]
          rfl
    · exact rest.directory way (first.directory way there)
    · intro g hg
      obtain rfl | hg := List.mem_cons.mp hg
      · exact locate_of_grows rest.grows rest.workingDirectory first.locate
      · rw [rest.locate g hg, places]

theorem readText_eq_ok_iff {files : Files} {path text : String} {way : List String}
    (h : files.locate path = .ok way) :
    files.readText path = .ok text ↔ files.root.textAt? way = some (some text) := by
  rw [textAt?_eq_some_iff, Files.readText, Files.find, h]
  dsimp only [Bind.bind, Except.bind]
  cases files.root.at? way with
  | none => constructor <;> intro h <;> cases h
  | some tree =>
    cases tree with
    | directory entries => constructor <;> intro h <;> cases h
    | file content =>
      cases content with
      | none => constructor <;> intro h <;> cases h
      | some content =>
        constructor
        · intro h
          cases h
          rfl
        · intro h
          cases h
          rfl

/-- **When no file is lost.**  Each one of the files that were written can be read back iff those in
one place have one text. -/
theorem readText_writeAll_iff {files files' : Files} {rendered : List RenderedFile}
    (named : ∀ f ∈ rendered, Path.IsNamed f.path)
    (here : files.root.IsDirectoryAt files.workingDirectory)
    (h : writeAll files rendered = .ok files') :
    (∀ f ∈ rendered, files'.readText f.path = .ok f.content) ↔
      ∀ f ∈ rendered, ∀ g ∈ rendered, files.wayOf f.path = files.wayOf g.path →
        f.content = g.content := by
  have all := allWritten_of_writeAll named here h
  have reads : ∀ f ∈ rendered, ∀ text, files'.readText f.path = .ok text ↔
      files'.root.textAt? (files.wayOf f.path) = some (some text) :=
    fun f hf text => readText_eq_ok_iff (all.locate f hf)
  constructor
  · intro kept f hf g hg same
    have first := (reads f hf _).mp (kept f hf)
    have second := (reads g hg _).mp (kept g hg)
    rw [same, second] at first
    exact (Option.some.inj (Option.some.inj first)).symm
  · intro same f hf
    rw [reads f hf, all.textAt?]
    cases last : lastAt? files (files.wayOf f.path) rendered with
    | none => exact absurd rfl (lastAt?_eq_none_iff.mp last f hf)
    | some g =>
      obtain ⟨hg, place⟩ := lastAt?_eq_some last
      rw [same f hf g hg place.symm]
      rfl

/-! ### Delivering files -/

variable {files : Files} {config : Config} {dir : String} {rendered : List RenderedFile}

/-- What is delivered to a directory is written there. -/
theorem writeAll_of_deliver {outcome : Outcome} (goes : config.buildPath = some dir)
    (delivered : deliver files config rendered = .ok outcome) :
    writeAll files (placedIn dir rendered) = .ok outcome.files := by
  unfold deliver at delivered
  rw [goes] at delivered
  dsimp only at delivered
  obtain ⟨files', wrote, made⟩ := bind_eq_ok delivered
  cases made
  exact wrote

theorem forall_mem_placedIn {P : RenderedFile → Prop} :
    (∀ f ∈ placedIn dir rendered, P f) ↔
      ∀ f ∈ rendered, P { f with path := Path.join dir f.path } := by
  unfold placedIn
  exact List.forall_mem_map

theorem isNamed_of_mem_placedIn (named : ∀ f ∈ rendered, Path.IsNamed f.path) :
    ∀ f ∈ placedIn dir rendered, Path.IsNamed f.path :=
  forall_mem_placedIn.mpr fun f hf => Path.isNamed_join (named f hf) dir

end Run
end RouteBook
