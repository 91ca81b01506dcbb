import RouteBook.Proofs.Document.Books
import RouteBook.Proofs.Files.Components
import RouteBook.Run
/-! # The files of a run

The path of a rendered file is a stem with the ending of its format.  The stem is the identifier
of the project, with the name of the book behind it if there is a file for every book, or the stem
that is given to the merged document.  All endings have one length, so two paths are the same iff
their stems open alike and their formats are the same (`components_ending_inj`).
-/
namespace RouteBook

namespace OutputFormat

/-- What the path of a file in a format ends with. -/
def ending : OutputFormat → String
  | .asciidoc => ".adoc"
  | .json => ".json"
  | .yaml => ".yaml"

theorem isEnding_ending (format : OutputFormat) : Path.IsEnding format.ending := by
  cases format with
  | asciidoc => exact ⟨by decide, by decide⟩
  | json => exact ⟨by decide, by decide⟩
  | yaml => exact ⟨by decide, by decide⟩

theorem length_ending (format : OutputFormat) : format.ending.toList.length = 5 := by
  cases format with
  | asciidoc => decide
  | json => decide
  | yaml => decide

theorem ending_injective {format format' : OutputFormat} (h : format.ending = format'.ending) :
    format = format' := by
  cases format <;> cases format' <;> first | rfl | exact absurd h (by decide)

/-- Two files have one path iff their stems open alike and their formats are the same. -/
theorem components_ending_inj {stem stem' : String} {format format' : OutputFormat} :
    Path.components (stem ++ format.ending) = Path.components (stem' ++ format'.ending) ↔
      Path.opening stem = Path.opening stem' ∧ format = format' := by
  rw [Path.components_append_inj format.isEnding_ending format'.isEnding_ending
    (by rw [length_ending, length_ending])]
  exact and_congr_right fun _ => ⟨ending_injective, congrArg ending⟩

end OutputFormat

namespace Project

/-- The paths of the files of a project in a format, without their ending. -/
def stems (p : Project) : OutputFormat → List String
  | .asciidoc => p.bookNames.map fun name => p.id ++ "_" ++ name
  | .json => [p.id]
  | .yaml => [p.id]

theorem map_path_render (p : Project) (format : OutputFormat) :
    (p.render format).map (·.path) = (p.stems format).map (· ++ format.ending) := by
  cases format with
  | asciidoc =>
    show p.toAsciiDoc.map _ = _
    rw [toAsciiDoc, stems, bookNames, List.map_map, List.map_map, List.map_map]
    rfl
  | json => rfl
  | yaml => rfl

/-- The stems of a project in one format are distinct, since its books are. -/
theorem IsFiled.nodup_stems {p : Project} (h : p.IsFiled) (format : OutputFormat) :
    (p.stems format).Nodup := by
  cases format with
  | asciidoc =>
    refine List.Pairwise.map _ (fun name other ne same => ne ?_) h.nodup_bookNames
    have chars := congrArg String.toList same
    simp only [String.toList_append] at chars
    exact String.toList_inj.mp (List.append_cancel_left chars)
  | json => exact List.pairwise_singleton _ _
  | yaml => exact List.pairwise_singleton _ _

end Project

namespace Run

open Project

/-! ### The documents among the files -/

theorem mem_documentsOf_iff {formats : List OutputFormat} {projects : List Project}
    {f : RenderedFile} :
    f ∈ documentsOf formats projects ↔ .asciidoc ∈ formats ∧ ∃ p ∈ projects, f ∈ p.toAsciiDoc := by
  unfold documentsOf
  rw [List.mem_flatMap]
  constructor
  · rintro ⟨p, hp, hf⟩
    obtain ⟨format, hformat, hf⟩ := List.mem_flatMap.mp hf
    obtain ⟨asked, same⟩ := List.mem_filter.mp hformat
    rw [beq_iff_eq.mp same] at asked hf
    exact ⟨asked, p, hp, hf⟩
  · rintro ⟨asked, p, hp, hf⟩
    exact ⟨p, hp, List.mem_flatMap.mpr ⟨.asciidoc, List.mem_filter.mpr ⟨asked, rfl⟩, hf⟩⟩

/-- There are documents iff AsciiDoc is asked for and some project has a book. -/
theorem documentsOf_ne_nil_iff {formats : List OutputFormat} {projects : List Project} :
    documentsOf formats projects ≠ [] ↔ .asciidoc ∈ formats ∧ ∃ p ∈ projects, p.books ≠ [] := by
  constructor
  · intro ne
    obtain ⟨f, hf⟩ := List.exists_mem_of_ne_nil _ ne
    obtain ⟨asked, p, hp, hf⟩ := mem_documentsOf_iff.mp hf
    refine ⟨asked, p, hp, fun no_book => ?_⟩
    rw [toAsciiDoc, no_book] at hf
    exact absurd hf List.not_mem_nil
  · rintro ⟨asked, p, hp, ne⟩
    obtain ⟨entry, hentry⟩ := List.exists_mem_of_ne_nil _ ne
    exact List.ne_nil_of_mem
      (mem_documentsOf_iff.mpr ⟨asked, p, hp, List.mem_map_of_mem hentry⟩)

/-! ### All files -/

/-- The files of all projects in all formats, without the merged document. -/
def rendered (formats : List OutputFormat) (projects : List Project) : List RenderedFile :=
  projects.flatMap fun p => formats.flatMap p.render

/-- Whether there is a merged document. -/
def HasMerged (config : Config) (projects : List Project) : Prop :=
  config.mergesDocuments = true ∧ documentsOf config.formats projects ≠ []

/-- **The files of a run**: those of the projects, and behind them the merged document if there is
one. -/
theorem renderAll_cases (config : Config) (projects : List Project) :
    HasMerged config projects ∧ renderAll projects config = rendered config.formats projects ++
        [mergeDocuments config.mergedStem (documentsOf config.formats projects)] ∨
      ¬ HasMerged config projects ∧
        renderAll projects config = rendered config.formats projects := by
  unfold HasMerged renderAll rendered
  dsimp only
  cases config.mergesDocuments with
  | false => exact .inr ⟨fun h => Bool.noConfusion h.1, rfl⟩
  | true =>
    by_cases empty : documentsOf config.formats projects = []
    · rw [empty]
      exact .inr ⟨fun h => h.2 rfl, rfl⟩
    · rw [List.isEmpty_eq_false_iff.mpr empty]
      exact .inl ⟨⟨rfl, empty⟩, rfl⟩

/-- The paths of a project in several formats. -/
def pathsOf (formats : List OutputFormat) (p : Project) : List String :=
  formats.flatMap fun format => (p.stems format).map (· ++ format.ending)

theorem map_path_rendered (formats : List OutputFormat) (projects : List Project) :
    (rendered formats projects).map (·.path) = projects.flatMap (pathsOf formats) := by
  unfold rendered
  rw [List.map_flatMap]
  simp only [List.map_flatMap, map_path_render]
  rfl

theorem mem_pathsOf_iff {formats : List OutputFormat} {p : Project} {path : String} :
    path ∈ pathsOf formats p ↔
      ∃ format ∈ formats, ∃ stem ∈ p.stems format, stem ++ format.ending = path := by
  unfold pathsOf
  simp only [List.mem_flatMap, List.mem_map]

theorem append_ending_mem_pathsOf {formats : List OutputFormat} {p : Project} {stem : String}
    {format : OutputFormat} (hformat : format ∈ formats) (hstem : stem ∈ p.stems format) :
    stem ++ format.ending ∈ pathsOf formats p := mem_pathsOf_iff.mpr ⟨format, hformat, stem, hstem, rfl⟩

/-- **The path of a file** is one of a project, or that of the merged document. -/
theorem mem_map_path_renderAll_iff {config : Config} {projects : List Project} {path : String} :
    path ∈ (renderAll projects config).map (·.path) ↔
      (∃ p ∈ projects, path ∈ pathsOf config.formats p) ∨
        HasMerged config projects ∧ path = config.mergedStem ++ OutputFormat.asciidoc.ending := by
  obtain ⟨merged, all⟩ | ⟨not_merged, all⟩ := renderAll_cases config projects
  · rw [all, List.map_append, List.mem_append, map_path_rendered, List.mem_flatMap,
      List.map_singleton, List.mem_singleton, and_iff_right merged]
    rfl
  · rw [all, map_path_rendered, List.mem_flatMap]
    exact (or_iff_left fun h => not_merged h.1).symm

theorem isNamed_of_mem_renderAll {config : Config} {projects : List Project} {f : RenderedFile}
    (hf : f ∈ renderAll projects config) : Path.IsNamed f.path := by
  obtain ⟨p, -, hpath⟩ | ⟨-, path⟩ := mem_map_path_renderAll_iff.mp (List.mem_map_of_mem hf)
  · obtain ⟨format, -, stem, -, path⟩ := mem_pathsOf_iff.mp hpath
    rw [← path]
    exact Path.isNamed_append format.isEnding_ending stem
  · rw [path]
    exact Path.isNamed_append OutputFormat.asciidoc.isEnding_ending _

end Run
end RouteBook
