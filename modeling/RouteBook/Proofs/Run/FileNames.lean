import Mathlib.Data.List.Nodup
import RouteBook.Proofs.Run.Delivery
import RouteBook.Proofs.Run.Projects
import RouteBook.Proofs.Run.Rendered
/-! # When no file overwrites another

Nothing keeps apart the directories of one module that are found in different places, or a name of a
book that ends where another begins; and names of books that are different may be different ways to
write one path, as `a//b` and `a/b` are.  So two projects of a run may have a path in common, and so
may two books of one project, or a book and the merged document.

What a path is depends on how its stem opens it.  The paths of a run are distinct iff no two stems
open alike in a format that is asked for, and none opens like the stem of the merged document
(`nodup_paths_iff`).

Distinct paths that stay below the directory and do not begin with a point lead to different places,
so that every file can be read back as it was rendered (`readable_iff`).
-/
namespace RouteBook
namespace Run

open Project

variable {config : Config} {projects : List Project}

/-! ### Distinct paths -/

/-- The paths of some files, as what they are and not as they are written. -/
def pathsIn (files : List RenderedFile) : List (List String) :=
  files.map fun f => Path.components f.path

theorem pathsIn_eq_map (files : List RenderedFile) :
    pathsIn files = (files.map (·.path)).map Path.components := by
  rw [List.map_map]
  rfl

/-- In no format that is asked for do two stems of a project open alike. -/
def OpensApart (formats : List OutputFormat) (p : Project) : Prop :=
  ∀ format ∈ formats, ∀ stem ∈ p.stems format, ∀ other ∈ p.stems format,
    Path.opening stem = Path.opening other → stem = other

/-- In no format that is asked for does a stem of one project open like one of the other. -/
def ApartIn (formats : List OutputFormat) (p q : Project) : Prop :=
  ∀ format ∈ formats, ∀ stem ∈ p.stems format, ∀ other ∈ q.stems format,
    Path.opening stem ≠ Path.opening other

/-- The paths of a filed project are distinct iff its stems open apart. -/
theorem nodup_components_pathsOf_iff {formats : List OutputFormat} (distinct : formats.Nodup)
    {p : Project} (filed : p.IsFiled) :
    ((pathsOf formats p).map Path.components).Nodup ↔ OpensApart formats p := by
  unfold pathsOf OpensApart
  rw [List.map_flatMap]
  simp only [List.map_map]
  -- in two formats the endings differ, so the stems of one format count
  refine List.pairwise_flatMap.trans ((and_iff_left ?_).trans ?_)
  · refine distinct.imp fun other => ?_
    simp only [List.mem_map]
    rintro _ ⟨stem, -, rfl⟩ _ ⟨stem', -, rfl⟩ same
    exact other (OutputFormat.components_ending_inj.mp same).2
  · refine forall₂_congr fun format _ => ?_
    refine (List.nodup_map_iff_inj_on (filed.nodup_stems format)).trans ?_
    simp only [Function.comp_apply, OutputFormat.components_ending_inj, and_true]

/-- No path of one project is one of another iff their stems open apart. -/
theorem forall_components_pathsOf_ne_iff {formats : List OutputFormat} {p q : Project} :
    (∀ x ∈ (pathsOf formats p).map Path.components,
      ∀ y ∈ (pathsOf formats q).map Path.components, x ≠ y) ↔ ApartIn formats p q := by
  simp only [List.forall_mem_map]
  constructor
  · intro ne format hformat stem hstem other hother same
    refine ne _ (append_ending_mem_pathsOf hformat hstem) _
      (append_ending_mem_pathsOf hformat hother) ?_
    exact OutputFormat.components_ending_inj.mpr ⟨same, rfl⟩
  · intro apart x hx y hy same
    obtain ⟨format, hformat, stem, hstem, rfl⟩ := mem_pathsOf_iff.mp hx
    obtain ⟨format', -, other, hother, rfl⟩ := mem_pathsOf_iff.mp hy
    obtain ⟨opens, rfl⟩ := OutputFormat.components_ending_inj.mp same
    exact apart format hformat stem hstem other hother opens

theorem pathsIn_rendered (formats : List OutputFormat) (projects : List Project) :
    pathsIn (rendered formats projects) =
      projects.flatMap fun p => (pathsOf formats p).map Path.components := by
  rw [pathsIn_eq_map, map_path_rendered, List.map_flatMap]

/-- The paths of several filed projects are distinct iff all of their stems open apart. -/
theorem nodup_pathsIn_rendered_iff {formats : List OutputFormat} (distinct : formats.Nodup)
    (filed : ∀ p ∈ projects, p.IsFiled) :
    (pathsIn (rendered formats projects)).Nodup ↔
      (∀ p ∈ projects, OpensApart formats p) ∧ projects.Pairwise (ApartIn formats) := by
  rw [pathsIn_rendered]
  refine List.pairwise_flatMap.trans (and_congr ?_ ?_)
  · exact forall₂_congr fun p hp => nodup_components_pathsOf_iff distinct (filed p hp)
  · simp only [forall_components_pathsOf_ne_iff]

/-- The merged document takes the path of another one iff its stem opens like that of a book. -/
theorem merged_path_mem_iff {stem : String} {formats : List OutputFormat} :
    Path.components (stem ++ ".adoc") ∈ pathsIn (rendered formats projects) ↔
      .asciidoc ∈ formats ∧ ∃ p ∈ projects, ∃ other ∈ p.stems .asciidoc,
        Path.opening other = Path.opening stem := by
  rw [pathsIn_rendered, List.mem_flatMap]
  simp only [List.mem_map]
  constructor
  · rintro ⟨p, hp, path, hpath, same⟩
    obtain ⟨format, asked, other, hother, rfl⟩ := mem_pathsOf_iff.mp hpath
    have both : Path.opening other = Path.opening stem ∧ format = .asciidoc :=
      OutputFormat.components_ending_inj.mp same
    obtain ⟨opens, rfl⟩ := both
    exact ⟨asked, p, hp, other, hother, opens⟩
  · rintro ⟨asked, p, hp, other, hother, opens⟩
    have same : Path.components (other ++ OutputFormat.asciidoc.ending) =
        Path.components (stem ++ OutputFormat.asciidoc.ending) :=
      OutputFormat.components_ending_inj.mpr ⟨opens, rfl⟩
    exact ⟨p, hp, _, append_ending_mem_pathsOf asked hother, same⟩

/-- **When the paths of a run are distinct.** -/
theorem nodup_paths_iff (distinct : config.formats.Nodup) (filed : ∀ p ∈ projects, p.IsFiled) :
    (pathsIn (renderAll projects config)).Nodup ↔
      (∀ p ∈ projects, OpensApart config.formats p) ∧
      projects.Pairwise (ApartIn config.formats) ∧
      (config.mergesDocuments = true → .asciidoc ∈ config.formats →
        ∀ p ∈ projects, ∀ stem ∈ p.stems .asciidoc,
          Path.opening stem ≠ Path.opening config.mergedStem) := by
  have projects_apart := nodup_pathsIn_rendered_iff distinct filed
  rw [← and_assoc, ← projects_apart]
  obtain ⟨⟨merges, collected⟩, all⟩ | ⟨not_merged, all⟩ := renderAll_cases config projects
  · have asked := (documentsOf_ne_nil_iff.mp collected).1
    have own_path : Path.components (config.mergedStem ++ ".adoc") ∉
        pathsIn (rendered config.formats projects) ↔
          ∀ p ∈ projects, ∀ stem ∈ p.stems .asciidoc,
            Path.opening stem ≠ Path.opening config.mergedStem := by
      rw [merged_path_mem_iff]
      constructor
      · intro none_there p hp stem hstem opens
        exact none_there ⟨asked, p, hp, stem, hstem, opens⟩
      · rintro apart ⟨-, p, hp, stem, hstem, opens⟩
        exact apart p hp stem hstem opens
    have paths : pathsIn (renderAll projects config) =
        pathsIn (rendered config.formats projects) ++
          [Path.components (config.mergedStem ++ ".adoc")] := by
      rw [all, pathsIn, List.map_append]
      rfl
    rw [paths, List.perm_append_comm.nodup_iff, List.singleton_append, List.nodup_cons, and_comm]
    refine and_congr_right fun _ => own_path.trans ?_
    exact ⟨fun apart _ _ => apart, fun apart => apart merges asked⟩
  · rw [all]
    refine (and_iff_left fun merges asked p hp stem hstem _ => not_merged ⟨merges, ?_⟩).symm
    -- a project with a document has a book to merge
    refine documentsOf_ne_nil_iff.mpr ⟨asked, p, hp, fun no_book => ?_⟩
    rw [stems, bookNames, no_book] at hstem
    exact absurd hstem List.not_mem_nil

/-! ### Distinct places -/

/-- Each of some rendered files can be read back from the directory that they were written to. -/
def AllReadable (outcome : Outcome) (dir : String) (rendered : List RenderedFile) : Prop :=
  ∀ f ∈ rendered, outcome.files.readText (Path.join dir f.path) = .ok f.content

variable {files : Files} {dir : String} {outcome : Outcome} {rendered : List RenderedFile}

/-- **When every file can be read back**: iff files of one path have one content. -/
theorem readable_iff (named : ∀ f ∈ rendered, Path.IsNamed f.path)
    (direct : ∀ f ∈ rendered, Path.IsDirect f.path)
    (here : files.root.IsDirectoryAt files.workingDirectory)
    (goes : config.buildPath = some dir)
    (delivered : deliver files config rendered = .ok outcome) :
    AllReadable outcome dir rendered ↔
      ∀ f ∈ rendered, ∀ g ∈ rendered,
        Path.components f.path = Path.components g.path → f.content = g.content := by
  have wrote := writeAll_of_deliver goes delivered
  have place : ∀ f ∈ rendered,
      files.wayOf (Path.join dir f.path) = files.wayOf dir ++ Path.components f.path :=
    fun f hf => files.wayOf_join_of_isDirect (direct f hf) dir
  have reads := readText_writeAll_iff (isNamed_of_mem_placedIn named) here wrote
  simp only [forall_mem_placedIn] at reads
  -- two files go to one place iff their paths are the same
  refine reads.trans (forall₂_congr fun f hf => forall₂_congr fun g hg => ?_)
  rw [place f hf, place g hg, List.append_cancel_left_eq]

/-- **When no output overwrites another.**  A path is what its components are.  The paths of a run
are distinct iff in the formats that are asked for no two stems of a project open alike, no stem of
one project opens like a stem of another, and none like the stem of the merged document.  If they are
distinct, stay below the directory and do not begin with a point, then every file that was written
can be read back. -/
theorem generated_paths_distinct_iff {path : String} {asked : Option Framework}
    (made : (generateAll files path config asked).run.value = .ok projects)
    (distinct : config.formats.Nodup) :
    ((pathsIn (renderAll projects config)).Nodup ↔
      (∀ p ∈ projects, OpensApart config.formats p) ∧
      projects.Pairwise (ApartIn config.formats) ∧
      (config.mergesDocuments = true → .asciidoc ∈ config.formats →
        ∀ p ∈ projects, ∀ stem ∈ p.stems .asciidoc,
          Path.opening stem ≠ Path.opening config.mergedStem)) ∧
    ∀ dir outcome, config.buildPath = some dir →
      files.root.IsDirectoryAt files.workingDirectory →
      deliver files config (renderAll projects config) = .ok outcome →
      (pathsIn (renderAll projects config)).Nodup →
      (∀ f ∈ renderAll projects config, Path.IsDirect f.path) →
      AllReadable outcome dir (renderAll projects config) := by
  have filed : ∀ p ∈ projects, p.IsFiled := fun p hp => (mem_generateAll made hp).1
  refine ⟨nodup_paths_iff distinct filed, ?_⟩
  intro dir outcome goes here delivered nodup direct
  have named : ∀ f ∈ renderAll projects config, Path.IsNamed f.path :=
    fun f hf => isNamed_of_mem_renderAll hf
  refine (readable_iff named direct here goes delivered).mpr fun f hf g hg same => ?_
  rw [List.inj_on_of_nodup_map nodup hf hg same]

/-- A directory users inside of a directory orders. -/
def usersInOrders : Files :=
  ⟨.directory [("orders", .directory [("users", .directory
    [("items.rs", controllerFile "Items")])])], []⟩

/-- Both directories are modules, and their documents are also merged. -/
def bothModules : Config :=
  { buildPath := some "out", modules := [⟨"users", none⟩, ⟨"orders", none⟩],
    mergesDocuments := true }

/-- What the modules are documented as. -/
def bothProjects : List Project :=
  ((generateAll usersInOrders "." bothModules none).run.value.toOption).getD []

/-- Nothing is shared between the two, so each document can be read where it was written. -/
theorem bothModules_readable :
    ∃ outcome,
      deliver usersInOrders bothModules (renderAll bothProjects bothModules) = .ok outcome ∧
      bothProjects.Pairwise (ApartIn bothModules.formats) ∧
      AllReadable outcome "out" (renderAll bothProjects bothModules) := by
  have made : (generateAll usersInOrders "." bothModules none).run.value = .ok bothProjects :=
    eq_ok_of_isOk (by decide +kernel) []
  have here : usersInOrders.root.IsDirectoryAt usersInOrders.workingDirectory := ⟨_, rfl⟩
  have paths : (renderAll bothProjects bothModules).map (·.path) =
      ["orders_default.adoc", "users_default.adoc", "api.adoc"] := by decide +kernel
  have nodup : (pathsIn (renderAll bothProjects bothModules)).Nodup := by
    rw [pathsIn_eq_map, paths]
    decide +kernel
  have direct : ∀ f ∈ renderAll bothProjects bothModules, Path.IsDirect f.path := by
    rw [← List.forall_mem_map, paths]
    decide +kernel
  have delivered := eq_ok_of_isOk
    (x := deliver usersInOrders bothModules (renderAll bothProjects bothModules))
    (by decide +kernel) default
  obtain ⟨distinct, readable⟩ := generated_paths_distinct_iff made (by decide)
  exact ⟨_, delivered, (distinct.mp nodup).2.1,
    readable "out" _ rfl here delivered nodup direct⟩

/-! ### Two directories of one name -/

/-- Two directories of the name users, in different places, each with a controller. -/
def twoUsers : Files :=
  ⟨.directory [
    ("a", .directory [("users", .directory [("items.rs", controllerFile "Items")])]),
    ("b", .directory [("users", .directory [("orders.rs", controllerFile "Orders")])])], []⟩

def usersModule : Config := { buildPath := some "out", modules := [⟨"users", none⟩] }

theorem directories_twoUsers :
    twoUsers.directories "." ["users"] 3 = .ok ["./a/users", "./b/users"] := by
  have sorted : twoUsers.root.sorted = twoUsers.root := by
    simp [twoUsers, controllerFile, FileTree.sorted, FileTree.sortedEntries, List.mergeSort]
  have tree : twoUsers.treeAt "." = .ok twoUsers.root := congrArg Except.ok sorted
  unfold Files.directories
  rw [tree]
  decide +kernel

theorem value_generateAll_twoUsers :
    (generateAll twoUsers "." usersModule none).run.value =
      .ok (generateModules twoUsers usersModule none ["./a/users", "./b/users"]).value := by
  rw [value_generateAll_of_modules (List.cons_ne_nil _ _)]
  show (twoUsers.directories "." ["users"] 3 >>= _) = _
  rw [directories_twoUsers]
  have some_project : (generateModules twoUsers usersModule none
      ["./a/users", "./b/users"]).value.isEmpty = false := by decide +kernel
  show (if (generateModules twoUsers usersModule none _).value.isEmpty then _ else _) = _
  rw [some_project]
  rfl

/-- Of the two directories, only one is documented in the end: two different documents have one
path. -/
theorem users_overwritten :
    ∃ projects, (generateAll twoUsers "." usersModule none).run.value = .ok projects ∧
      usersModule.validate twoUsers = .ok () ∧ usersModule.formats.Nodup ∧
      ¬ (pathsIn (renderAll projects usersModule)).Nodup ∧
      ∃ f ∈ renderAll projects usersModule, ∃ g ∈ renderAll projects usersModule,
        f.path = g.path ∧ f.content ≠ g.content := by
  have clash : ∃ f ∈ renderAll (generateModules twoUsers usersModule none
      ["./a/users", "./b/users"]).value usersModule,
      ∃ g ∈ renderAll (generateModules twoUsers usersModule none
      ["./a/users", "./b/users"]).value usersModule,
        f.path = g.path ∧ f.content ≠ g.content := by decide +kernel
  refine ⟨_, value_generateAll_twoUsers, rfl, by decide, fun nodup => ?_, clash⟩
  obtain ⟨f, hf, g, hg, path, content⟩ := clash
  have same : f = g := List.inj_on_of_nodup_map nodup hf hg (congrArg Path.components path)
  exact content (congrArg _ same)

end Run
end RouteBook
