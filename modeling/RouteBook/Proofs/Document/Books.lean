import RouteBook.Extract.Build
import RouteBook.Proofs.Document.Renderable
/-! # Books by their names

The books of a project are looked up by name when a chapter is added, so no two of them have one
name and each stands under its own (`IsFiled`).  Adding a chapter keeps it so, and leaving things
out does. A project is made by adding chapters to one without books, hence every project that is
extracted is filed, under the identifier that the configuration gives it (`isFiled_project`,
`id_project`).
-/
namespace RouteBook
namespace Project

/-- The books of a project stand under their names, and no two have one name. -/
structure IsFiled (p : Project) : Prop where
  nodup : (p.books.map Prod.fst).Nodup
  key_eq : ∀ entry ∈ p.books, entry.1 = entry.2.name

/-- The names of the books of a project. -/
def bookNames (p : Project) : List String := p.books.map fun entry => entry.2.name

theorem IsFiled.nodup_bookNames {p : Project} (h : p.IsFiled) : p.bookNames.Nodup := by
  have names : p.bookNames = p.books.map Prod.fst :=
    List.map_congr_left fun entry hentry => (h.key_eq entry hentry).symm
  rw [names]
  exact h.nodup

/-! ### Adding chapters -/

/-- A change to a book leaves the keys as they are, or adds the key of a new book at their end. -/
theorem keys_changeBook (name : String) (f : Book → Book) (books : List (String × Book)) :
    (changeBook name f books).map Prod.fst =
      if name ∈ books.map Prod.fst then books.map Prod.fst else books.map Prod.fst ++ [name] := by
  induction books with
  | nil => rfl
  | cons entry rest ih =>
    obtain ⟨key, b⟩ := entry
    unfold changeBook
    by_cases same : key = name
    · rw [if_pos same, if_pos (by simp [same])]
      rfl
    · rw [if_neg same, List.map_cons, ih, List.map_cons]
      have other : ¬ name = key := Ne.symm same
      by_cases there : name ∈ rest.map Prod.fst
      · rw [if_pos there, if_pos (List.mem_cons_of_mem key there)]
      · have missing : name ∉ key :: rest.map Prod.fst := by
          rw [List.mem_cons, not_or]
          exact ⟨other, there⟩
        rw [if_neg there, if_neg missing]
        rfl

/-- A change that leaves the name of a book alone leaves every book under its name. -/
theorem key_eq_changeBook {name : String} {f : Book → Book} (keeps : ∀ b, (f b).name = b.name)
    {books : List (String × Book)} (h : ∀ entry ∈ books, entry.1 = entry.2.name) :
    ∀ entry ∈ changeBook name f books, entry.1 = entry.2.name := by
  induction books with
  | nil =>
    intro entry hentry
    rw [List.mem_singleton.mp hentry]
    exact (keeps (Book.new name)).symm
  | cons first rest ih =>
    obtain ⟨key, b⟩ := first
    obtain ⟨hfirst, hrest⟩ := List.forall_mem_cons.mp h
    unfold changeBook
    by_cases same : key = name
    · rw [if_pos same]
      exact List.forall_mem_cons.mpr ⟨hfirst.trans (keeps b).symm, hrest⟩
    · rw [if_neg same]
      exact List.forall_mem_cons.mpr ⟨hfirst, ih hrest⟩

theorem isFiled_of_books_eq_nil {p : Project} (h : p.books = []) : p.IsFiled := by
  refine ⟨?_, ?_⟩
  · rw [h]
    exact List.nodup_nil
  · rw [h]
    exact fun entry hentry => absurd hentry List.not_mem_nil

theorem IsFiled.addChapter {p : Project} (h : p.IsFiled) (c : Chapter) :
    (p.addChapter c).IsFiled := by
  have add (b : Book) : ({ b with chapters := b.chapters ++ [c] } : Book).name = b.name := rfl
  refine ⟨?_, key_eq_changeBook add h.key_eq⟩
  show ((changeBook (c.book.getD Book.defaultName) _ p.books).map Prod.fst).Nodup
  rw [keys_changeBook]
  split
  · exact h.nodup
  · rename_i missing
    refine List.nodup_append.mpr ⟨h.nodup, List.pairwise_singleton _ _, ?_⟩
    intro key hkey name hname same
    rw [same, List.mem_singleton.mp hname] at hkey
    exact missing hkey

/-! ### Leaving things out -/

/-- What is left of a book stands where the book stood, under the same name. -/
theorem name_eq_of_bookLeft? {test : Endpoint → Bool} {entry entry' : String × Book}
    (h : bookLeft? test entry = some entry') :
    entry'.1 = entry.1 ∧ entry'.2.name = entry.2.name := by
  obtain ⟨-, rfl⟩ := bookLeft?_eq_some_iff.mp h
  exact ⟨rfl, rfl⟩

theorem sublist_keys_filterMap (test : Endpoint → Bool) (books : List (String × Book)) :
    ((books.filterMap (bookLeft? test)).map Prod.fst).Sublist (books.map Prod.fst) := by
  induction books with
  | nil => exact List.Sublist.slnil
  | cons entry rest ih =>
    cases left : bookLeft? test entry with
    | none =>
      rw [List.filterMap_cons_none left]
      exact List.Sublist.cons entry.1 ih
    | some entry' =>
      rw [List.filterMap_cons_some left, List.map_cons, (name_eq_of_bookLeft? left).1]
      exact List.Sublist.cons_cons entry.1 ih

theorem IsFiled.renderable {p : Project} (h : p.IsFiled) (filter : PathFilter) :
    (p.renderable filter).IsFiled := by
  rw [renderable_eq]
  refine ⟨List.Nodup.sublist (sublist_keys_filterMap _ p.books) h.nodup, ?_⟩
  intro entry' hentry'
  obtain ⟨entry, hentry, left⟩ := List.mem_filterMap.mp hentry'
  obtain ⟨key, name⟩ := name_eq_of_bookLeft? left
  rw [key, name]
  exact h.key_eq entry hentry

end Project

namespace Extract

open Project

variable {dialect : Dialect} {types : Types} {urlPrefix : String}

/-- What adding a chapter keeps holds after all chapters are added. -/
theorem addChapters_induction {P : Project → Prop} (step : ∀ p c, P p → P (p.addChapter c))
    {p : Project} (h : P p) (cs : List Controller) :
    P (addChapters dialect types urlPrefix p cs).value := by
  induction cs generalizing p with
  | nil => exact h
  | cons c cs ih => exact ih (step p _ h)

/-- **The books of an extracted project stand under their names.** -/
theorem isFiled_project (framework : Framework) (config : Config)
    (files : List (List Source.Item)) : (project framework config files).value.IsFiled :=
  addChapters_induction (fun _ c h => h.addChapter c) (isFiled_of_books_eq_nil rfl) _

/-- **An extracted project is the one that was configured.** -/
theorem id_project (framework : Framework) (config : Config) (files : List (List Source.Item)) :
    (project framework config files).value.id = config.id :=
  @addChapters_induction _ _ _ (fun p => p.id = config.id) (fun _ _ h => h) _ rfl _

end Extract
end RouteBook
