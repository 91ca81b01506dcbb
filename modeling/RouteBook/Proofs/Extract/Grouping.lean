import Mathlib.Data.List.Induction
import RouteBook.Proofs.Document.Books
import RouteBook.Proofs.Text.Pieces
/-! # Chapters in their books

Every controller that is accepted becomes a chapter, and the chapter goes into the book that the
controller names.  Adding chapters one after another groups them (`books_foldl_addChapter`): there is
a book for each name, the books stand in the order in which their names first occur, and the chapters
of a book stand in the order in which they came.

Grouping is stable under more input (`grouped_append`): further chapters go to the ends of the books
that are there, and books with new names come last.
-/
namespace RouteBook

/-! ### Names in the order in which they first occur -/

/-- A further name goes last if it is new. -/
theorem eraseDups_concat (names : List String) (name : String) :
    (names ++ [name]).eraseDups =
      if name ∈ names then names.eraseDups else names.eraseDups ++ [name] := by
  rw [List.eraseDups_append]
  by_cases h : name ∈ names
  · simp [List.removeAll, h]
  · simp [List.removeAll, h, List.eraseDups_cons]

theorem nodup_eraseDups (names : List String) : names.eraseDups.Nodup := by
  induction names using List.reverseRecOn with
  | nil => exact List.nodup_nil
  | append_singleton names name ih =>
    rw [eraseDups_concat]
    split
    · exact ih
    · rename_i new
      refine List.nodup_append.mpr ⟨ih, List.pairwise_singleton _ _, ?_⟩
      intro a ha b hb he
      rw [he, List.mem_singleton.mp hb] at ha
      exact new (List.mem_eraseDups.mp ha)

/-- Which names occur first does not depend on those that are left out. -/
theorem eraseDups_filter (test : String → Bool) (names : List String) :
    (names.filter test).eraseDups = names.eraseDups.filter test := by
  induction names using List.reverseRecOn with
  | nil => rfl
  | append_singleton names name ih =>
    rw [List.filter_append, eraseDups_concat]
    cases kept : test name with
    | false =>
      have left : [name].filter test = [] := by
        rw [List.filter_cons_of_neg (by rw [kept]; exact Bool.false_ne_true), List.filter_nil]
      rw [left, List.append_nil, ih]
      split
      · rfl
      · rw [List.filter_append, left, List.append_nil]
    | true =>
      have whole : [name].filter test = [name] := by
        rw [List.filter_cons_of_pos kept, List.filter_nil]
      have mem : name ∈ names.filter test ↔ name ∈ names := by
        rw [List.mem_filter, and_iff_left kept]
      rw [whole, eraseDups_concat, ih]
      simp only [mem]
      split
      · rfl
      · rw [List.filter_append, whole]

namespace Project

/-! ### Groups of chapters -/

/-- The name of the book that a chapter is filed under. -/
def bookNameOf (c : Chapter) : String := c.book.getD Book.defaultName

/-- The chapters that are filed under a name. -/
def under (name : String) (cs : List Chapter) : List Chapter :=
  cs.filter fun c => bookNameOf c == name

/-- **Chapters grouped by their books**: a book for each name, in the order in which the names first
occur. -/
def grouped (cs : List Chapter) : List (String × Book) :=
  (cs.map bookNameOf).eraseDups.map fun name => (name, ⟨name, under name cs⟩)

theorem keys_grouped (cs : List Chapter) :
    (grouped cs).map Prod.fst = (cs.map bookNameOf).eraseDups := by
  rw [grouped, List.map_map]
  exact List.map_id _

theorem under_concat (name : String) (cs : List Chapter) (c : Chapter) :
    under name (cs ++ [c]) = if bookNameOf c = name then under name cs ++ [c] else under name cs := by
  unfold under
  rw [List.filter_append]
  by_cases h : bookNameOf c = name
  · rw [if_pos h, List.filter_cons_of_pos (by simpa using h), List.filter_nil]
  · rw [if_neg h, List.filter_cons_of_neg (by simpa using h), List.filter_nil, List.append_nil]

/-- No chapter is filed under a name that none of them has. -/
theorem under_eq_nil {name : String} {cs : List Chapter} (h : name ∉ cs.map bookNameOf) :
    under name cs = [] := by
  refine List.filter_eq_nil_iff.mpr fun c hc same => h ?_
  rw [← beq_iff_eq.mp same]
  exact List.mem_map_of_mem hc

/-! ### Changing a book -/

/-- A change to a book that is there leaves the others alone. -/
theorem changeBook_of_mem {name : String} (f : Book → Book) (book : String → Book)
    {names : List String} (nodup : names.Nodup) (h : name ∈ names) :
    changeBook name f (names.map fun n => (n, book n)) =
      names.map fun n => (n, if name = n then f (book n) else book n) := by
  induction names with
  | nil => exact absurd h List.not_mem_nil
  | cons n names ih =>
    obtain ⟨hn, hnames⟩ := List.nodup_cons.mp nodup
    rw [List.map_cons, List.map_cons, changeBook]
    by_cases same : n = name
    · -- the name occurs once, so the books behind it stay as they are
      have others : ∀ m ∈ names, (m, book m) = (m, if name = m then f (book m) else book m) := by
        intro m hm
        rw [if_neg]
        rintro rfl
        exact hn (same ▸ hm)
      rw [if_pos same, if_pos same.symm, List.map_congr_left others]
    · have rest : name ∈ names := (List.mem_cons.mp h).resolve_left (Ne.symm same)
      rw [if_neg same, if_neg (Ne.symm same), ih hnames rest]

/-- A book that is not there is added at the end. -/
theorem changeBook_of_notMem {name : String} (f : Book → Book) {books : List (String × Book)}
    (h : name ∉ books.map Prod.fst) :
    changeBook name f books = books ++ [(name, f (Book.new name))] := by
  induction books with
  | nil => rfl
  | cons entry rest ih =>
    rw [List.map_cons, List.mem_cons, not_or] at h
    rw [changeBook, if_neg (Ne.symm h.1), ih h.2, List.cons_append]

/-- **One more chapter** goes to the end of its book, which comes last if it is new. -/
theorem grouped_concat (cs : List Chapter) (c : Chapter) :
    grouped (cs ++ [c]) =
      changeBook (bookNameOf c) (fun b => { b with chapters := b.chapters ++ [c] })
        (grouped cs) := by
  have names : ((cs ++ [c]).map bookNameOf).eraseDups =
      if bookNameOf c ∈ cs.map bookNameOf then (cs.map bookNameOf).eraseDups
      else (cs.map bookNameOf).eraseDups ++ [bookNameOf c] := by
    rw [List.map_append]
    exact eraseDups_concat _ _
  by_cases h : bookNameOf c ∈ cs.map bookNameOf
  · rw [if_pos h] at names
    rw [grouped, names, grouped, changeBook_of_mem _ _ (nodup_eraseDups _) (List.mem_eraseDups.mpr h)]
    refine List.map_congr_left fun name _ => ?_
    rw [under_concat]
    split <;> rfl
  · rw [if_neg h] at names
    have new : bookNameOf c ∉ (grouped cs).map Prod.fst := by
      rwa [keys_grouped, List.mem_eraseDups]
    rw [changeBook_of_notMem _ new, grouped, names, List.map_append]
    congr 1
    · refine List.map_congr_left fun name hname => ?_
      have other : bookNameOf c ≠ name := by
        rintro rfl
        exact h (List.mem_eraseDups.mp hname)
      rw [under_concat, if_neg other]
    · rw [List.map_singleton, under_concat, if_pos rfl, under_eq_nil h]
      rfl

/-- **Adding chapters one after another groups them.** -/
theorem books_foldl_addChapter {p : Project} (h : p.books = []) (cs : List Chapter) :
    (cs.foldl addChapter p).books = grouped cs := by
  induction cs using List.reverseRecOn with
  | nil => exact h
  | append_singleton cs c ih =>
    rw [List.foldl_append, grouped_concat, ← ih]
    rfl

/-- **Further chapters** go to the ends of the books that are there, and new books come last. -/
theorem grouped_append (cs more : List Chapter) :
    grouped (cs ++ more) =
      (grouped cs).map (fun entry =>
        (entry.1, { entry.2 with chapters := entry.2.chapters ++ under entry.1 more })) ++
      (grouped more).filter fun entry => entry.1 ∉ (grouped cs).map Prod.fst := by
  have split (name : String) : under name (cs ++ more) = under name cs ++ under name more :=
    List.filter_append ..
  have later : ((more.map bookNameOf).removeAll (cs.map bookNameOf)).eraseDups =
      (more.map bookNameOf).eraseDups.filter fun name =>
        name ∉ (cs.map bookNameOf).eraseDups := by
    rw [← eraseDups_filter]
    refine congrArg List.eraseDups (List.filter_congr fun name _ => ?_)
    rw [List.elem_eq_mem, decide_not]
    simp only [List.mem_eraseDups]
  rw [keys_grouped, grouped, List.map_append, List.eraseDups_append, List.map_append, later]
  congr 1
  · rw [grouped, List.map_map]
    refine List.map_congr_left fun name _ => ?_
    rw [split]
    rfl
  · rw [grouped, List.filter_map]
    refine List.map_congr_left fun name hname => ?_
    have new : name ∉ (cs.map bookNameOf).eraseDups := by
      simpa using List.of_mem_filter hname
    rw [split, under_eq_nil (fun h => new (List.mem_eraseDups.mpr h)), List.nil_append]

/-! ### No chapter is lost -/

theorem chapters_changeBook_perm (name : String) (c : Chapter) (books : List (String × Book)) :
    ((changeBook name (fun b => { b with chapters := b.chapters ++ [c] }) books).flatMap
      fun entry => entry.2.chapters).Perm ((books.flatMap fun entry => entry.2.chapters) ++ [c]) := by
  induction books with
  | nil => exact .refl _
  | cons entry rest ih =>
    obtain ⟨key, b⟩ := entry
    unfold changeBook
    split
    · rw [List.flatMap_cons, List.flatMap_cons, List.append_assoc, List.append_assoc]
      exact List.perm_append_comm.append_left b.chapters
    · rw [List.flatMap_cons, List.flatMap_cons, List.append_assoc]
      exact ih.append_left b.chapters

theorem chapters_foldl_addChapter_perm (p : Project) (cs : List Chapter) :
    (cs.foldl addChapter p).chapters.Perm (p.chapters ++ cs) := by
  induction cs generalizing p with
  | nil =>
    rw [List.append_nil]
    exact .refl _
  | cons c cs ih =>
    have first : (p.addChapter c).chapters.Perm (p.chapters ++ [c]) :=
      chapters_changeBook_perm _ c p.books
    rw [← List.singleton_append, ← List.append_assoc]
    exact (ih (p.addChapter c)).trans (first.append_right cs)

end Project

namespace Extract
open Project

variable (dialect : Dialect) (types : Types)

/-! ### The books of a project -/

/-- The name of the book of a controller: what the first tag of its comment that reads `@book` says,
without the blanks around it, and `default` if there is no such tag or it says nothing. -/
def bookName (c : Controller) : String :=
  match c.doc.tags.find? fun tag => tag.kind = .named ∧ tag.name = "book" with
  | some tag => if Text.trimmed tag.content = "" then "default" else Text.trimmed tag.content
  | none => "default"

theorem bookName_eq (c : Controller) : (bookOf? c).getD Book.defaultName = bookName c := by
  unfold bookOf? bookName DocComment.named? Tag.find? bookTag
  cases c.doc.tags.find? fun tag => tag.kind = .named ∧ tag.name = "book" with
  | none => rfl
  | some tag =>
    have nothing : Text.trimmed tag.content = "" ↔ Text.blank tag.content = true := by
      rw [Text.blank, ← Text.trim_eq_nil_iff, Text.trimmed]
      exact String.ofList_eq_empty_iff
    show (Text.nonBlank? tag.content).getD Book.defaultName = _
    unfold Text.nonBlank?
    simp only [nothing]
    split <;> rfl

/-- The chapter that a controller becomes. -/
def chapterOf (config : Config) (c : Controller) : Chapter :=
  (chapter dialect types config.urlPrefix c).value

theorem bookNameOf_chapterOf (config : Config) (c : Controller) :
    bookNameOf (chapterOf dialect types config c) = bookName c := bookName_eq c

/-- The accepted controllers of several units, unit by unit. -/
def accepted (units : List (List Controller)) : List Controller :=
  units.flatMap fun unit => unit.filter dialect.isController

/-- The project of some units whose types are described by `types`. -/
def projectOf (config : Config) (units : List (List Controller)) : Logged Project :=
  addChapters dialect types config.urlPrefix
    { Project.new config.id config.displayName with
      description := config.description
      version := config.version }
    (accepted dialect units)

/-- The project of some files has a unit for every file, and the types that the files declare. -/
theorem project_eq_projectOf (framework : Framework) (config : Config)
    (files : List (List Source.Item)) :
    project framework config files =
      projectOf framework.dialect ⟨framework.dialect.chain, TypeIndex.ofFiles files⟩ config
        (files.map Controller.ofItems) := by
  have units : (files.flatMap Controller.ofItems).filter framework.dialect.isController =
      accepted framework.dialect (files.map Controller.ofItems) := by
    rw [accepted, List.filter_flatMap, List.flatMap_map]
  rw [projectOf, ← units]
  rfl

theorem value_addChapters (urlPrefix : String) (p : Project) (cs : List Controller) :
    (addChapters dialect types urlPrefix p cs).value =
      (cs.map fun c => (chapter dialect types urlPrefix c).value).foldl addChapter p := by
  induction cs generalizing p with
  | nil => rfl
  | cons c cs ih => exact ih _

/-- The books of a project are its chapters grouped. -/
theorem books_projectOf (config : Config) (units : List (List Controller)) :
    (projectOf dialect types config units).value.books =
      grouped ((accepted dialect units).map (chapterOf dialect types config)) := by
  rw [projectOf, value_addChapters]
  exact books_foldl_addChapter rfl _

/-- The chapters under a name are those of the controllers that name it. -/
theorem under_map_chapterOf (config : Config) (name : String) (cs : List Controller) :
    under name (cs.map (chapterOf dialect types config)) =
      (cs.filter fun c => bookName c == name).map (chapterOf dialect types config) := by
  rw [under, List.filter_map]
  refine congrArg _ (List.filter_congr fun c _ => ?_)
  rw [Function.comp_apply, bookNameOf_chapterOf]

/-- **Controllers are grouped into books.**  A project has exactly one chapter for every accepted
controller.  There is a book for every name that one of them has for its book, in the order in which
the names first occur; it stands under its name, and holds the chapters of its controllers in order.
With further units, every book gets their chapters behind those that it has, and new books come behind
the others.  The project of source files is of this kind, with a unit for every file. -/
theorem chapters_grouped_by_book (config : Config) (units more : List (List Controller)) :
    ((projectOf dialect types config units).value.chapters.Perm
      ((accepted dialect units).map (chapterOf dialect types config))) ∧
    (projectOf dialect types config units).value.books =
      (((accepted dialect units).map bookName).eraseDups.map fun name =>
        (name, ⟨name, ((accepted dialect units).filter fun c => bookName c == name).map
          (chapterOf dialect types config)⟩)) ∧
    (projectOf dialect types config (units ++ more)).value.books =
      (projectOf dialect types config units).value.books.map (fun entry =>
        (entry.1, ⟨entry.2.name, entry.2.chapters ++
          ((accepted dialect more).filter fun c => bookName c == entry.1).map
            (chapterOf dialect types config)⟩)) ++
      (projectOf dialect types config more).value.books.filter (fun entry =>
        entry.1 ∉ (projectOf dialect types config units).value.books.map Prod.fst) ∧
    ∀ (framework : Framework) (files : List (List Source.Item)),
      project framework config files =
        projectOf framework.dialect ⟨framework.dialect.chain, TypeIndex.ofFiles files⟩ config
          (files.map Controller.ofItems) := by
  refine ⟨?_, ?_, ?_, fun framework files => project_eq_projectOf framework config files⟩
  · rw [projectOf, value_addChapters]
    exact chapters_foldl_addChapter_perm _ _
  · have names : ((accepted dialect units).map (chapterOf dialect types config)).map bookNameOf =
        (accepted dialect units).map bookName := by
      rw [List.map_map]
      exact List.map_congr_left fun c _ => bookNameOf_chapterOf dialect types config c
    rw [books_projectOf, grouped, names]
    refine List.map_congr_left fun name _ => ?_
    rw [under_map_chapterOf]
  · have both : accepted dialect (units ++ more) = accepted dialect units ++ accepted dialect more :=
      List.flatMap_append ..
    simp only [books_projectOf, both, List.map_append, grouped_append, under_map_chapterOf]

/-- A controller without handlers whose comment consists of tags. -/
def tagged (name : String) (tags : List Tag) : Controller where
  name := name
  markers := [⟨"rest_controller", []⟩]
  doc := ⟨none, tags⟩
  handlers := []

/-- Two units.  Of the tags in them, those behind the first `@book` tag of a controller, one that
documents a parameter, and one that says nothing do not name a book. -/
def taggedUnits : List (List Controller) :=
  [[tagged "Jobs" [⟨.named, "since", "2"⟩, ⟨.named, "book", " ops "⟩, ⟨.named, "book", "shop"⟩],
      tagged "Items" []],
    [tagged "Carts" [⟨.named, "book", "  "⟩, ⟨.named, "book", "shop"⟩],
      tagged "Logs" [⟨.param, "book", "shop"⟩, ⟨.named, "book", "ops"⟩]]]

/-- The second unit adds a chapter to each of the two books of the first one. -/
theorem books_taggedUnits :
    (projectOf Spring.dialect ⟨Spring.dialect.chain, .ofFiles []⟩ {} taggedUnits).value.books.map
      (fun entry => (entry.1, entry.2.chapters.map Chapter.name)) =
        [("ops", ["Jobs", "Logs"]), ("default", ["Items", "Carts"])] := by
  obtain ⟨-, books, -⟩ := chapters_grouped_by_book Spring.dialect
    ⟨Spring.dialect.chain, .ofFiles []⟩ {} taggedUnits []
  rw [books]
  decide +kernel

end Extract
end RouteBook
