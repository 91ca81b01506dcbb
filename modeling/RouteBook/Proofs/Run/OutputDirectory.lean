import RouteBook.Proofs.Config.Checks
import RouteBook.Proofs.Run.Delivery
import RouteBook.Proofs.Run.Projects
import RouteBook.Proofs.Run.Rendered
/-! # What is written below the output directory

The stem of a file comes from three places: the identifier of its project, the name of a book, and
the name of the merged document.  Of these only the identifiers of modules are checked, which have
no slash (`isInward_directory`).  So the files of a run are all below the directory that they are
written to iff none of the others goes up, or starts at the root (`generated_paths_below_iff`).  Then
a run changes no file elsewhere (`textAt?_eq_of_deliver`).
-/
namespace RouteBook

/-- The directory of a module that is checked leads nowhere but to itself. -/
theorem Config.IsCheckedModule.isInward_directory {m : SourceModule} (h : IsCheckedModule m) :
    Path.IsInward m.directory := by
  refine Path.isInward_of_slash_notMem fun slash => ?_
  have kept : '/' ∈ Text.trim m.directory.toList :=
    Text.mem_trim_of_not_isBlank (by decide) slash
  have none_left := h.slash
  rw [Text.hasChar, Text.trimmed, String.toList_ofList, List.contains_eq_mem,
    decide_eq_false_iff_not] at none_left
  exact none_left kept

namespace Run

open Project

variable {config : Config} {projects : List Project}

/-! ### Paths that stay below -/

/-- The stems of a project lead inward iff its identifier does and no inner piece of a book's name
goes up. -/
theorem forall_stems_isInward_iff {p : Project} {format : OutputFormat} :
    (∀ stem ∈ p.stems format, Path.IsInward stem) ↔
      (p.stems format ≠ [] → Path.IsInward p.id) ∧
        (format = .asciidoc → ∀ name ∈ p.bookNames, ".." ∉ Path.innerPieces name) := by
  cases format with
  | asciidoc =>
    unfold stems
    rw [List.forall_mem_map]
    simp only [Path.isInward_append_iff, ne_eq, List.map_eq_nil_iff, true_implies]
    constructor
    · intro inward
      refine ⟨fun ne => ?_, fun name hname => (inward name hname).2⟩
      obtain ⟨name, hname⟩ := List.exists_mem_of_ne_nil _ ne
      exact (inward name hname).1
    · rintro ⟨id, names⟩ name hname
      exact ⟨id (List.ne_nil_of_mem hname), names name hname⟩
  | json => simp [stems]
  | yaml => simp [stems]

/-- **When every file is below**: iff every stem leads inward. -/
theorem forall_isBelow_iff :
    (∀ f ∈ renderAll projects config, Path.IsBelow f.path) ↔
      (∀ p ∈ projects, ∀ format ∈ config.formats, ∀ stem ∈ p.stems format, Path.IsInward stem) ∧
        (HasMerged config projects → Path.IsInward config.mergedStem) := by
  have below (stem : String) (format : OutputFormat) :
      Path.IsBelow (stem ++ format.ending) ↔ Path.IsInward stem :=
    Path.isBelow_append_iff format.isEnding_ending
  rw [← List.forall_mem_map (P := Path.IsBelow)]
  simp only [mem_map_path_renderAll_iff]
  constructor
  · intro all
    refine ⟨fun p hp format hformat stem hstem => ?_, fun merged => ?_⟩
    · have path := append_ending_mem_pathsOf hformat hstem
      exact (below stem format).mp (all _ (.inl ⟨p, hp, path⟩))
    · exact (below _ .asciidoc).mp (all _ (.inr ⟨merged, rfl⟩))
  · rintro ⟨stems, merged⟩ path (⟨p, hp, hpath⟩ | ⟨has, rfl⟩)
    · obtain ⟨format, hformat, stem, hstem, rfl⟩ := mem_pathsOf_iff.mp hpath
      exact (below stem format).mpr (stems p hp format hformat stem hstem)
    · exact (below _ .asciidoc).mpr (merged has)

/-- There are files iff some project has one. -/
theorem renderAll_ne_nil_iff :
    renderAll projects config ≠ [] ↔
      ∃ p ∈ projects, ∃ format ∈ config.formats, p.stems format ≠ [] := by
  constructor
  · intro ne
    obtain ⟨f, hf⟩ := List.exists_mem_of_ne_nil _ ne
    obtain ⟨p, hp, hpath⟩ | ⟨⟨-, collected⟩, -⟩ :=
      mem_map_path_renderAll_iff.mp (List.mem_map_of_mem hf)
    · obtain ⟨format, hformat, stem, hstem, -⟩ := mem_pathsOf_iff.mp hpath
      exact ⟨p, hp, format, hformat, List.ne_nil_of_mem hstem⟩
    · obtain ⟨asked, p, hp, ne⟩ := documentsOf_ne_nil_iff.mp collected
      refine ⟨p, hp, .asciidoc, asked, ?_⟩
      rw [stems, bookNames, ne_eq, List.map_eq_nil_iff, List.map_eq_nil_iff]
      exact ne
  · rintro ⟨p, hp, format, hformat, ne⟩ none_left
    obtain ⟨stem, hstem⟩ := List.exists_mem_of_ne_nil _ ne
    have own := append_ending_mem_pathsOf hformat hstem
    have path := mem_map_path_renderAll_iff.mpr (.inl ⟨p, hp, own⟩)
    rw [none_left] at path
    exact absurd path List.not_mem_nil

/-! ### Whose identifiers count -/

/-- Only the identifier of the configuration can lead anywhere else, and only where there are no
modules. -/
theorem forall_id_isInward_iff {files : Files} {path : String} {asked : Option Framework}
    (modules : ∀ m ∈ config.modules, Config.IsCheckedModule m)
    (made : (generateAll files path config asked).run.value = .ok projects) :
    (∀ p ∈ projects, ∀ format ∈ config.formats, p.stems format ≠ [] → Path.IsInward p.id) ↔
      (config.modules = [] → renderAll projects config ≠ [] → Path.IsInward config.id) := by
  rw [renderAll_ne_nil_iff]
  constructor
  · -- without modules, every project bears the identifier of the configuration
    rintro inward none_given ⟨p, hp, format, hformat, ne⟩
    obtain ⟨-, ⟨-, id⟩ | ⟨m, hm, -⟩⟩ := mem_generateAll made hp
    · rw [← id]
      exact inward p hp format hformat ne
    · rw [none_given] at hm
      exact absurd hm List.not_mem_nil
  · -- and with modules, it bears the name of one, which has passed the checks
    intro inward p hp format hformat ne
    obtain ⟨-, ⟨none_given, id⟩ | ⟨m, hm, id⟩⟩ := mem_generateAll made hp
    · rw [id]
      exact inward none_given ⟨p, hp, format, hformat, ne⟩
    · rw [id]
      exact (modules m hm).isInward_directory

/-! ### What is written elsewhere -/

variable {files : Files} {dir : String} {outcome : Outcome}

/-- **A run changes no file elsewhere** if all its files are below the directory they are written
to. -/
theorem textAt?_eq_of_deliver {rendered : List RenderedFile}
    (named : ∀ f ∈ rendered, Path.IsNamed f.path) (below : ∀ f ∈ rendered, Path.IsBelow f.path)
    (here : files.root.IsDirectoryAt files.workingDirectory) (goes : config.buildPath = some dir)
    (delivered : deliver files config rendered = .ok outcome) {way : List String}
    (elsewhere : ¬ files.wayOf dir <+: way) :
    outcome.files.root.textAt? way = files.root.textAt? way := by
  have all := allWritten_of_writeAll (isNamed_of_mem_placedIn named) here
    (writeAll_of_deliver goes delivered)
  -- the way to each file goes through the directory, and this way does not
  have none_there : lastAt? files way (placedIn dir rendered) = none := by
    refine lastAt?_eq_none_iff.mpr (forall_mem_placedIn.mpr fun f hf same => elsewhere ?_)
    rw [← same]
    exact Files.wayOf_isPrefix_join files (below f hf) dir
  rw [all.textAt?, none_there]
  rfl

/-- **When the output stays below its directory.**  The files of a run are below the directory
that they are written to iff the identifier of the configuration leads inward, provided that it is
used, no inner piece of the name of a book goes up, and the stem of the merged document leads
inward; and if they are, then every file elsewhere is left as it was. -/
theorem generated_paths_below_iff {path : String} {asked : Option Framework}
    (valid : config.validate files = .ok ())
    (made : (generateAll files path config asked).run.value = .ok projects) :
    ((∀ f ∈ renderAll projects config, Path.IsBelow f.path) ↔
      (config.modules = [] → renderAll projects config ≠ [] → Path.IsInward config.id) ∧
        (.asciidoc ∈ config.formats →
          ∀ p ∈ projects, ∀ name ∈ p.bookNames, ".." ∉ Path.innerPieces name) ∧
        (HasMerged config projects → Path.IsInward config.mergedStem)) ∧
    ∀ dir outcome, config.buildPath = some dir →
      files.root.IsDirectoryAt files.workingDirectory →
      deliver files config (renderAll projects config) = .ok outcome →
      (∀ f ∈ renderAll projects config, Path.IsBelow f.path) →
      ∀ way, ¬ files.wayOf dir <+: way →
        outcome.files.root.textAt? way = files.root.textAt? way := by
  obtain ⟨checked, -⟩ := Config.validate_eq_ok_iff.mp valid
  have ids := forall_id_isInward_iff checked.modules made
  constructor
  · rw [forall_isBelow_iff, ← and_assoc, ← ids]
    refine and_congr_left fun _ => ?_
    simp only [forall_stems_isInward_iff]
    constructor
    · intro inward
      refine ⟨fun p hp format hformat => (inward p hp format hformat).1, ?_⟩
      intro asked p hp
      exact (inward p hp .asciidoc asked).2 rfl
    · rintro ⟨ids, names⟩ p hp format hformat
      refine ⟨ids p hp format hformat, ?_⟩
      rintro rfl
      exact names hformat p hp
  · intro dir outcome goes here delivered below way elsewhere
    have named : ∀ f ∈ renderAll projects config, Path.IsNamed f.path :=
      fun f hf => isNamed_of_mem_renderAll hf
    exact textAt?_eq_of_deliver named below here goes delivered elsewhere

/-! ### An identifier that leads out -/

/-- A directory with a single source file. -/
def oneSource : Files := ⟨.directory [("items.rs", controllerFile "Items")], []⟩

/-- What is made of the file under an identifier, and written to a directory out. -/
def documentedAs (id : String) : Config := { id := id, buildPath := some "out" }

def projectsAs (id : String) : List Project :=
  ((generateAll oneSource "." (documentedAs id) none).run.value.toOption).getD []

/-- A plain identifier keeps the document below out, and the source as it was. -/
theorem shop_below_out :
    ∃ outcome, deliver oneSource (documentedAs "shop")
        (renderAll (projectsAs "shop") (documentedAs "shop")) = .ok outcome ∧
      (∀ f ∈ renderAll (projectsAs "shop") (documentedAs "shop"), Path.IsBelow f.path) ∧
      outcome.files.root.textAt? ["items.rs"] = oneSource.root.textAt? ["items.rs"] := by
  have made : (generateAll oneSource "." (documentedAs "shop") none).run.value =
      .ok (projectsAs "shop") := eq_ok_of_isOk (by decide +kernel) []
  have names : ∀ p ∈ projectsAs "shop", ∀ name ∈ p.bookNames, ".." ∉ Path.innerPieces name := by
    decide +kernel
  have valid : (documentedAs "shop").validate oneSource = .ok () := rfl
  obtain ⟨below_iff, elsewhere⟩ := generated_paths_below_iff valid made
  have below := below_iff.mpr
    ⟨fun _ _ => by decide, fun _ => names, fun merged => absurd merged.1 (by decide)⟩
  have delivered := eq_ok_of_isOk
    (x := deliver oneSource (documentedAs "shop")
      (renderAll (projectsAs "shop") (documentedAs "shop"))) (by decide +kernel) default
  exact ⟨_, delivered, below,
    elsewhere "out" _ rfl ⟨_, rfl⟩ delivered below ["items.rs"] (by decide)⟩

/-- An identifier that goes up is accepted, and the document is written beside out. -/
theorem shop_above_out :
    ∃ projects outcome, (documentedAs "../shop").validate oneSource = .ok () ∧
      (generateAll oneSource "." (documentedAs "../shop") none).run.value = .ok projects ∧
      deliver oneSource (documentedAs "../shop") (renderAll projects (documentedAs "../shop")) =
        .ok outcome ∧
      ¬ (∀ f ∈ renderAll projects (documentedAs "../shop"), Path.IsBelow f.path) ∧
      outcome.files.root.textAt? ["shop_default.adoc"] ≠
        oneSource.root.textAt? ["shop_default.adoc"] := by
  have made : (generateAll oneSource "." (documentedAs "../shop") none).run.value =
      .ok (projectsAs "../shop") := eq_ok_of_isOk (by decide +kernel) []
  have delivered := eq_ok_of_isOk
    (x := deliver oneSource (documentedAs "../shop")
      (renderAll (projectsAs "../shop") (documentedAs "../shop"))) (by decide +kernel) default
  refine ⟨_, _, rfl, made, delivered, ?_, ?_⟩
  · decide +kernel
  · decide +kernel

end Run
end RouteBook
