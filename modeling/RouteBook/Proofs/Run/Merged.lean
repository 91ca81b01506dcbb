import RouteBook.Proofs.Config.Checks
import RouteBook.Proofs.Run.Rendered
/-! # The document that joins all others

The merged document is collected in the same loop that renders each project in each format, so a
project gives its documents to it once for every time that its format is asked for
(`documentsOf_eq`).  A configuration that passes asks for it at least once, and if it does so
exactly once, then the merged document holds every book once.  Otherwise it is longer: a text that
joins some pieces is as long as the pieces with an end each, less one end (`length_joined`).
-/
namespace RouteBook

namespace Text

/-- How long some pieces are if each of them has an end. -/
def lengthOfAll : List String → Nat
  | [] => 0
  | piece :: pieces => piece.length + 1 + lengthOfAll pieces

theorem lengthOfAll_append (pieces more : List String) :
    lengthOfAll (pieces ++ more) = lengthOfAll pieces + lengthOfAll more := by
  induction pieces with
  | nil => exact (Nat.zero_add _).symm
  | cons piece pieces ih =>
    rw [List.cons_append, lengthOfAll, lengthOfAll, ih]
    omega

theorem length_le_lengthOfAll (pieces : List String) : pieces.length ≤ lengthOfAll pieces := by
  induction pieces with
  | nil => exact Nat.le_refl 0
  | cons piece pieces ih =>
    rw [lengthOfAll, List.length_cons]
    omega

/-- Pieces with a line end between any two of them have one less than with an end each. -/
theorem length_joined {pieces : List String} (ne : pieces ≠ []) :
    (joined "\n" pieces).length + 1 = lengthOfAll pieces := by
  have chars (cs : List Char) : (String.ofList cs).length = cs.length := by
    rw [← String.length_toList, String.toList_ofList]
  unfold joined
  rw [chars]
  induction pieces with
  | nil => exact absurd rfl ne
  | cons piece pieces ih =>
    rw [lengthOfAll, List.map_cons]
    cases pieces with
    | nil =>
      show piece.toList.length + 1 = piece.length + 1 + 0
      rw [String.length_toList]
    | cons second rest =>
      have rest := ih (List.cons_ne_nil second rest)
      rw [List.map_cons] at rest ⊢
      show (piece.toList ++ "\n".toList ++ joinWith "\n".toList _).length + 1 = _
      rw [List.length_append, List.length_append, String.length_toList, Nat.add_assoc, rest]
      rfl

/-- Pieces that come so many times are so many times as long. -/
theorem lengthOfAll_copies (n : Nat) (pieces : List String) :
    lengthOfAll (List.replicate n pieces).flatten = n * lengthOfAll pieces := by
  induction n with
  | zero =>
    rw [Nat.zero_mul]
    rfl
  | succ n ih => rw [List.replicate_succ, List.flatten_cons, lengthOfAll_append, ih, Nat.succ_mul,
      Nat.add_comm]

theorem lengthOfAll_flatMap_copies {α : Type} (n : Nat) (f : α → List String) (as : List α) :
    lengthOfAll (as.flatMap fun a => (List.replicate n (f a)).flatten) =
      n * lengthOfAll (as.flatMap f) := by
  induction as with
  | nil => rfl
  | cons a as ih =>
    rw [List.flatMap_cons, List.flatMap_cons, lengthOfAll_append, lengthOfAll_append, ih,
      lengthOfAll_copies, Nat.mul_add]

/-- **Joining every group so many times** gives the text that joins each once only if they come
once. -/
theorem joined_copies_eq_iff {α : Type} {n : Nat} (pos : 0 < n) {f : α → List String} {as : List α}
    (ne : as.flatMap f ≠ []) :
    joined "\n" (as.flatMap fun a => (List.replicate n (f a)).flatten) =
      joined "\n" (as.flatMap f) ↔ n = 1 := by
  have total := lengthOfAll_flatMap_copies n f as
  have some_piece : 0 < lengthOfAll (as.flatMap f) :=
    Nat.lt_of_lt_of_le (List.length_pos_iff.mpr ne) (length_le_lengthOfAll _)
  constructor
  · intro same
    have ne' : (as.flatMap fun a => (List.replicate n (f a)).flatten) ≠ [] := by
      intro none_left
      rw [none_left] at total
      have both : 0 < n * lengthOfAll (as.flatMap f) := Nat.mul_pos pos some_piece
      rw [← total] at both
      exact absurd both (by decide)
    have lengths : lengthOfAll (as.flatMap fun a => (List.replicate n (f a)).flatten) =
        lengthOfAll (as.flatMap f) := by
      rw [← length_joined ne, ← length_joined ne', same]
    rw [total] at lengths
    exact Nat.eq_of_mul_eq_mul_right some_piece (lengths.trans (Nat.one_mul _).symm)
  · rintro rfl
    simp only [List.replicate_one, List.flatten_singleton]

end Text

namespace Project

/-- The AsciiDoc of each book of a project, in the order of the books. -/
def documentTexts (p : Project) : List String :=
  p.books.map fun entry => Markup.text (Page.book p entry.2)

theorem map_content_toAsciiDoc (p : Project) :
    p.toAsciiDoc.map (·.content) = p.documentTexts := by
  rw [toAsciiDoc, List.map_map]
  rfl

end Project

namespace Run

open Project

/-! ### What is collected -/

/-- What each project gives to the merged document: all its documents, as often as asked for. -/
theorem documentsOf_eq (formats : List OutputFormat) (projects : List Project) :
    documentsOf formats projects = projects.flatMap fun p =>
      (List.replicate (formats.count .asciidoc) p.toAsciiDoc).flatten := by
  have rendered (p : Project) : (formats.filter (· == .asciidoc)).flatMap p.render =
      (List.replicate (formats.count .asciidoc) p.toAsciiDoc).flatten := by
    rw [List.filter_beq, List.flatMap_replicate]
    rfl
  unfold documentsOf
  simp only [rendered]

theorem map_content_documentsOf (formats : List OutputFormat) (projects : List Project) :
    (documentsOf formats projects).map (·.content) = projects.flatMap fun p =>
      (List.replicate (formats.count .asciidoc) p.documentTexts).flatten := by
  rw [documentsOf_eq, List.map_flatMap]
  simp only [List.map_flatten, List.map_replicate, map_content_toAsciiDoc]

/-! ### The merged document -/

variable {files : Files} {config : Config} {projects : List Project}

/-- **The merged document holds every book as often as AsciiDoc is asked for.**  It is the last
file, behind those that there are without it, and joins the documents of all books in the order of
the projects and of their books; each of them stands there once iff AsciiDoc is asked for once. -/
theorem renderAll_merges_books (valid : config.validate files = .ok ())
    (merges : config.mergesDocuments = true) (some_book : ∃ p ∈ projects, p.books ≠ []) :
    ∃ merged : RenderedFile,
      renderAll projects config =
        renderAll projects { config with mergesDocuments := false } ++ [merged] ∧
      merged.path = config.mergedStem ++ ".adoc" ∧
      merged.content = Text.joined "\n" (projects.flatMap fun p =>
        (List.replicate (config.formats.count .asciidoc) p.documentTexts).flatten) ∧
      (merged.content = Text.joined "\n" (projects.flatMap documentTexts) ↔
        config.formats.count .asciidoc = 1) := by
  obtain ⟨checked, -⟩ := Config.validate_eq_ok_iff.mp valid
  have asked : .asciidoc ∈ config.formats := checked.merges merges
  have collected : documentsOf config.formats projects ≠ [] :=
    documentsOf_ne_nil_iff.mpr ⟨asked, some_book⟩
  have some_text : projects.flatMap documentTexts ≠ [] := by
    obtain ⟨p, hp, ne⟩ := some_book
    intro none_there
    have no_text := List.flatMap_eq_nil_iff.mp none_there p hp
    exact ne (List.map_eq_nil_iff.mp no_text)
  have content : (mergeDocuments config.mergedStem (documentsOf config.formats projects)).content =
      Text.joined "\n" (projects.flatMap fun p =>
        (List.replicate (config.formats.count .asciidoc) p.documentTexts).flatten) :=
    congrArg (Text.joined "\n") (map_content_documentsOf config.formats projects)
  obtain ⟨-, all⟩ | ⟨not_merged, -⟩ := renderAll_cases config projects
  · -- without merging, the files are those of the projects by definition
    refine ⟨_, all, rfl, content, ?_⟩
    rw [content]
    exact Text.joined_copies_eq_iff (List.count_pos_iff.mpr asked) some_text
  · exact absurd ⟨merges, collected⟩ not_merged

/-- A project with two books, of one chapter each. -/
def shop : Project :=
  ((Project.new "shop" "Shop").addChapter (Chapter.new "Items")).addChapter
    { Chapter.new "Prices" with book := some "admin" }

/-- Beside JSON, the merged document of the shop holds both books once. -/
theorem merged_shop_once :
    ∃ merged : RenderedFile,
      renderAll [shop] { formats := [.json, .asciidoc], mergesDocuments := true } =
        renderAll [shop] { formats := [.json, .asciidoc] } ++ [merged] ∧
      merged.path = "api.adoc" ∧ merged.content = Text.joined "\n" shop.documentTexts := by
  have valid : Config.validate ⟨.empty, []⟩
      { formats := [.json, .asciidoc], mergesDocuments := true } = .ok () := rfl
  have some_book : ∃ p ∈ [shop], p.books ≠ [] :=
    ⟨shop, List.mem_cons_self, List.cons_ne_nil _ _⟩
  obtain ⟨merged, behind, path, -, once⟩ := renderAll_merges_books valid rfl some_book
  refine ⟨merged, behind, path, ?_⟩
  rw [once.mpr rfl, List.flatMap_cons, List.flatMap_nil, List.append_nil]

/-- If AsciiDoc is asked for twice, then the books are there twice. -/
theorem merged_shop_twice :
    ∃ config : Config, config.validate ⟨.empty, []⟩ = .ok () ∧ config.mergesDocuments = true ∧
      (renderAll [shop] config).getLast? ≠
        some ⟨config.mergedStem ++ ".adoc", Text.joined "\n" ([shop].flatMap documentTexts)⟩ := by
  refine ⟨{ formats := [.asciidoc, .asciidoc], mergesDocuments := true }, rfl, rfl, ?_⟩
  intro same
  obtain ⟨-, all⟩ | ⟨not_merged, -⟩ :=
    renderAll_cases { formats := [.asciidoc, .asciidoc], mergesDocuments := true } [shop]
  · rw [all, List.getLast?_concat, Option.some.injEq] at same
    have twice := congrArg RenderedFile.content same
    rw [mergeDocuments, map_content_documentsOf] at twice
    have some_text : [shop].flatMap documentTexts ≠ [] := List.cons_ne_nil _ _
    exact absurd ((Text.joined_copies_eq_iff (by decide) some_text).mp twice) (by decide)
  · exact not_merged ⟨rfl, List.cons_ne_nil _ _⟩

end Run
end RouteBook
