import Mathlib.Data.List.Forall2
import RouteBook.Document.Project
/-! # What is left of a project

A project is cut down from the inside: a chapter to the endpoints that are shown, a book to the
chapters that are not ignored and have endpoints then, and the project to the books that have
chapters then.  So what is left of a chapter, or of a book, can be said for each by itself
(`chapterLeft?`, `bookLeft?`), and the whole is a `filterMap` at either level.

Two such cuts, one after the other, are a single one by both tests (`bookLeft?_bind`): a chapter that
the first cut leaves out has no endpoint for the second one to keep.  This is why a project that has
been cut down stays as it is, and why the order of two filters does not count
(`renderable_keeps_shown`).
-/
namespace RouteBook
namespace Project

/-! ### One chapter, one book -/

/-- What is left of a chapter, if anything, when an endpoint has to pass a test. -/
def chapterLeft? (test : Endpoint → Bool) (c : Chapter) : Option Chapter :=
  if c.isIgnored || (c.endpoints.filter test).isEmpty then none
  else some { c with endpoints := c.endpoints.filter test }

/-- What is left of the book under a key, if anything. -/
def bookLeft? (test : Endpoint → Bool) (entry : String × Book) : Option (String × Book) :=
  let chapters := entry.2.chapters.filterMap (chapterLeft? test)
  if chapters.isEmpty then none else some (entry.1, { entry.2 with chapters := chapters })

theorem filter_map_eq_filterMap {α β : Type} (f : α → β) (test : β → Bool) (as : List α) :
    (as.map f).filter test = as.filterMap fun a => if test (f a) then some (f a) else none := by
  rw [List.filter_map, ← List.filterMap_eq_map, List.filterMap_filter]
  rfl

theorem shownChapters_eq_filterMap (filter : PathFilter) (cs : List Chapter) :
    shownChapters filter cs = cs.filterMap (chapterLeft? (shows filter)) := by
  unfold shownChapters
  rw [filter_map_eq_filterMap, List.filterMap_filter]
  refine List.filterMap_congr fun c _ => ?_
  unfold chapterLeft? shownChapter
  dsimp only
  cases c.isIgnored with
  | true => rfl
  | false =>
    cases (c.endpoints.filter (shows filter)).isEmpty with
    | true => rfl
    | false => rfl

/-- **A project is cut down book by book.** -/
theorem books_renderable (p : Project) (filter : PathFilter) :
    (p.renderable filter).books = p.books.filterMap (bookLeft? (shows filter)) := by
  unfold renderable
  dsimp only
  rw [filter_map_eq_filterMap]
  refine List.filterMap_congr fun entry _ => ?_
  unfold bookLeft?
  rw [← shownChapters_eq_filterMap]
  dsimp only
  cases (shownChapters filter entry.2.chapters).isEmpty with
  | true => rfl
  | false => rfl

theorem chapterLeft?_eq_some_iff {test : Endpoint → Bool} {c c' : Chapter} :
    chapterLeft? test c = some c' ↔
      c.isIgnored = false ∧ c.endpoints.filter test ≠ [] ∧
        { c with endpoints := c.endpoints.filter test } = c' := by
  unfold chapterLeft?
  rw [Option.ite_none_left_eq_some, Option.some.injEq, Bool.or_eq_true, not_or,
    Bool.not_eq_true, List.isEmpty_iff, and_assoc]

theorem bookLeft?_eq_some_iff {test : Endpoint → Bool} {entry entry' : String × Book} :
    bookLeft? test entry = some entry' ↔
      entry.2.chapters.filterMap (chapterLeft? test) ≠ [] ∧
        (entry.1, { entry.2 with chapters := entry.2.chapters.filterMap (chapterLeft? test) }) =
          entry' := by
  unfold bookLeft?
  dsimp only
  rw [Option.ite_none_left_eq_some, Option.some.injEq, List.isEmpty_iff]

/-! ### Two tests -/

/-- **Two cuts are one cut by both tests.** -/
theorem chapterLeft?_bind (first second : Endpoint → Bool) (c : Chapter) :
    (chapterLeft? first c).bind (chapterLeft? second) =
      chapterLeft? (fun e => second e && first e) c := by
  refine Option.ext fun c' => ?_
  rw [Option.bind_eq_some_iff, chapterLeft?_eq_some_iff]
  constructor
  · rintro ⟨middle, hmiddle, h⟩
    obtain ⟨hshown, -, rfl⟩ := chapterLeft?_eq_some_iff.mp hmiddle
    obtain ⟨-, hne, rfl⟩ := chapterLeft?_eq_some_iff.mp h
    dsimp only at hne ⊢
    rw [List.filter_filter] at hne ⊢
    exact ⟨hshown, hne, rfl⟩
  · rintro ⟨hshown, hne, rfl⟩
    rw [← List.filter_filter] at hne ⊢
    -- what both tests leave is left by the first, which so cannot have left nothing
    have some_first : c.endpoints.filter first ≠ [] := by
      intro hnil
      rw [hnil] at hne
      exact hne rfl
    exact ⟨_, chapterLeft?_eq_some_iff.mpr ⟨hshown, some_first, rfl⟩,
      chapterLeft?_eq_some_iff.mpr ⟨hshown, hne, rfl⟩⟩

theorem bookLeft?_bind (first second : Endpoint → Bool) (entry : String × Book) :
    (bookLeft? first entry).bind (bookLeft? second) =
      bookLeft? (fun e => second e && first e) entry := by
  have chapters (cs : List Chapter) :
      cs.filterMap (chapterLeft? fun e => second e && first e) =
        (cs.filterMap (chapterLeft? first)).filterMap (chapterLeft? second) := by
    rw [List.filterMap_filterMap]
    exact List.filterMap_congr fun c _ => (chapterLeft?_bind first second c).symm
  refine Option.ext fun entry' => ?_
  rw [Option.bind_eq_some_iff, bookLeft?_eq_some_iff, chapters]
  constructor
  · rintro ⟨middle, hmiddle, h⟩
    obtain ⟨-, rfl⟩ := bookLeft?_eq_some_iff.mp hmiddle
    exact bookLeft?_eq_some_iff.mp h
  · rintro ⟨hne, rfl⟩
    have some_first : entry.2.chapters.filterMap (chapterLeft? first) ≠ [] := by
      intro hnil
      rw [hnil] at hne
      exact hne rfl
    exact ⟨_, bookLeft?_eq_some_iff.mpr ⟨some_first, rfl⟩, bookLeft?_eq_some_iff.mpr ⟨hne, rfl⟩⟩

/-- A project is its books and what no filter touches. -/
theorem renderable_eq (p : Project) (filter : PathFilter) :
    p.renderable filter =
      { p with books := p.books.filterMap (bookLeft? (shows filter)) } := by
  rw [← books_renderable]
  rfl

/-- Two filters, one after the other, cut a project down by both tests. -/
theorem renderable_renderable (p : Project) (first second : PathFilter) :
    (p.renderable first).renderable second =
      { p with
        books := p.books.filterMap (bookLeft? fun e => shows second e && shows first e) } := by
  rw [renderable_eq, renderable_eq]
  dsimp only
  rw [List.filterMap_filterMap]
  simp only [bookLeft?_bind]

/-! ### Endpoints in their places -/

/-- An endpoint and where it stands: the key and the name of its book, and the chapter, of which
everything but the endpoints is looked at. -/
structure Placed where
  key : String
  book : String
  chapter : Chapter
  endpoint : Endpoint

/-- The endpoints of a chapter. -/
def placedIn (key book : String) (c : Chapter) : List Placed :=
  c.endpoints.map fun e => ⟨key, book, { c with endpoints := [] }, e⟩

/-- The endpoints of a project in order, each with its place. -/
def placed (p : Project) : List Placed :=
  p.books.flatMap fun (key, b) => b.chapters.flatMap (placedIn key b.name)

theorem endpoints_eq_map_placed (p : Project) : p.endpoints = p.placed.map Placed.endpoint := by
  unfold endpoints chapters placed placedIn
  simp only [List.map_flatMap, List.flatMap_assoc, List.map_map]
  refine List.flatMap_congr fun entry _ => List.flatMap_congr fun c _ => ?_
  exact (List.map_id _).symm

/-- What every element leaves passes a test iff everything that is left does. -/
theorem flatMap_filterMap_eq_filter {α β γ : Type} {left? : α → Option β} {parts : β → List γ}
    {all : α → List γ} {test : γ → Bool}
    (each : ∀ a, (left? a).elim [] parts = (all a).filter test) (as : List α) :
    (as.filterMap left?).flatMap parts = (as.flatMap all).filter test := by
  induction as with
  | nil => rfl
  | cons a as ih =>
    rw [List.flatMap_cons, List.filter_append, ← ih, ← each a, List.filterMap_cons]
    cases left? a with
    | none => rfl
    | some b => exact List.flatMap_cons

/-- Whether an endpoint is shown where it stands. -/
def isShown (test : Endpoint → Bool) (x : Placed) : Bool := !x.chapter.isIgnored && test x.endpoint

theorem filter_placedIn (test : Endpoint → Bool) (key book : String) (c : Chapter) :
    (placedIn key book c).filter (isShown test) =
      (chapterLeft? test c).elim [] (placedIn key book) := by
  obtain ⟨name, description, isIgnored, inBook, baseUris, endpoints⟩ := c
  unfold placedIn chapterLeft?
  rw [List.filter_map]
  dsimp only
  cases isIgnored with
  | true =>
    have none_shown : endpoints.filter (isShown test ∘ fun e =>
        ⟨key, book, ⟨name, description, true, inBook, baseUris, []⟩, e⟩) = [] :=
      List.filter_eq_nil_iff.mpr fun _ _ => Bool.false_ne_true
    rw [none_shown]
    rfl
  | false =>
    have all_tested : (isShown test ∘ fun e =>
        ⟨key, book, ⟨name, description, false, inBook, baseUris, []⟩, e⟩) = test := rfl
    rw [all_tested]
    cases hnil : (endpoints.filter test).isEmpty with
    | true =>
      rw [List.isEmpty_iff.mp hnil]
      rfl
    | false => rfl

/-- **What is left are the endpoints that are shown**, in order and in their places. -/
theorem placed_renderable (p : Project) (filter : PathFilter) :
    (p.renderable filter).placed = p.placed.filter (isShown (shows filter)) := by
  unfold placed
  rw [books_renderable]
  refine flatMap_filterMap_eq_filter (fun entry => ?_) p.books
  rw [← flatMap_filterMap_eq_filter (fun c => (filter_placedIn _ _ _ c).symm)]
  unfold bookLeft?
  dsimp only
  split
  · rename_i hnil
    rw [List.isEmpty_iff.mp hnil]
    rfl
  · rfl

/-! ### Chapters and books in order -/

/-- A chapter that is left of another one: it has the endpoints that are shown, at least one. -/
structure IsChapterPart (filter : PathFilter) (part whole : Chapter) : Prop where
  whole_isIgnored : whole.isIgnored = false
  eq_with : part = { whole with endpoints := whole.endpoints.filter (shows filter) }
  endpoints_ne_nil : part.endpoints ≠ []

/-- A book that is left of another one under its key: it has some of its chapters, in order. -/
structure IsBookPart (filter : PathFilter) (part whole : String × Book) : Prop where
  key_eq : part.1 = whole.1
  name_eq : part.2.name = whole.2.name
  chapters : List.SublistForall₂ (IsChapterPart filter) part.2.chapters whole.2.chapters
  chapters_ne_nil : part.2.chapters ≠ []

theorem sublistForall₂_filterMap {α β : Type} {left? : α → Option β} {IsPart : β → α → Prop}
    (each : ∀ a b, left? a = some b → IsPart b a) (as : List α) :
    List.SublistForall₂ IsPart (as.filterMap left?) as := by
  induction as with
  | nil => exact .nil
  | cons a as ih =>
    rw [List.filterMap_cons]
    cases h : left? a with
    | none => exact .cons_right ih
    | some b => exact .cons (each a b h) ih

theorem sublistForall₂_books (p : Project) (filter : PathFilter) :
    List.SublistForall₂ (IsBookPart filter) (p.renderable filter).books p.books := by
  rw [books_renderable]
  refine sublistForall₂_filterMap (fun whole part h => ?_) p.books
  obtain ⟨hne, rfl⟩ := bookLeft?_eq_some_iff.mp h
  refine ⟨rfl, rfl, sublistForall₂_filterMap (fun c c' hc => ?_) whole.2.chapters, hne⟩
  obtain ⟨hshown, hendpoints, rfl⟩ := chapterLeft?_eq_some_iff.mp hc
  exact ⟨hshown, rfl, hendpoints⟩

/-- What is part of something stands in such a relation to an element. -/
theorem exists_of_mem_sublistForall₂ {α β : Type} {IsPart : β → α → Prop} {bs : List β}
    {as : List α} (h : List.SublistForall₂ IsPart bs as) : ∀ b ∈ bs, ∃ a ∈ as, IsPart b a := by
  induction h with
  | nil => exact fun _ hb => absurd hb List.not_mem_nil
  | cons hpart _ ih =>
    refine List.forall_mem_cons.mpr ⟨⟨_, List.mem_cons_self, hpart⟩, fun b hb => ?_⟩
    obtain ⟨a, ha, hpart'⟩ := ih b hb
    exact ⟨a, List.mem_cons_of_mem _ ha, hpart'⟩
  | cons_right _ ih =>
    intro b hb
    obtain ⟨a, ha, hpart⟩ := ih b hb
    exact ⟨a, List.mem_cons_of_mem _ ha, hpart⟩

/-- Nothing empty is left. -/
theorem ne_nil_of_mem_books {p : Project} {filter : PathFilter} {entry : String × Book}
    (h : entry ∈ (p.renderable filter).books) :
    entry.2.chapters ≠ [] ∧ ∀ c ∈ entry.2.chapters, c.endpoints ≠ [] := by
  obtain ⟨whole, -, part⟩ := exists_of_mem_sublistForall₂ (sublistForall₂_books p filter) entry h
  refine ⟨part.chapters_ne_nil, fun c hc => ?_⟩
  obtain ⟨c', -, chapterPart⟩ := exists_of_mem_sublistForall₂ part.chapters c hc
  exact chapterPart.endpoints_ne_nil

/-- **What a project shows.**  Exactly those endpoints are left that are not ignored, stand in a
chapter that is not ignored, and have a route that the filter keeps; they are what they were, in
order and in their places.  No chapter without endpoints and no book without chapters is left.  The
books that are left are parts of books, in order, and so are their chapters; the rest of the project
is as before.  A second time nothing changes, and the order of two filters does not count. -/
theorem renderable_keeps_shown (p : Project) (filter : PathFilter) :
    (p.renderable filter).placed = p.placed.filter (fun x =>
      !x.chapter.isIgnored && (!x.endpoint.isIgnored && filter.keeps x.endpoint.uri)) ∧
    (p.renderable filter).endpoints = (p.placed.filter (fun x =>
      !x.chapter.isIgnored && (!x.endpoint.isIgnored && filter.keeps x.endpoint.uri))).map
        Placed.endpoint ∧
    (∀ entry ∈ (p.renderable filter).books,
      entry.2.chapters ≠ [] ∧ ∀ c ∈ entry.2.chapters, c.endpoints ≠ []) ∧
    List.SublistForall₂ (IsBookPart filter) (p.renderable filter).books p.books ∧
    { p.renderable filter with books := p.books } = p ∧
    (p.renderable filter).renderable filter = p.renderable filter ∧
    ∀ other, (p.renderable filter).renderable other = (p.renderable other).renderable filter := by
  have shown := placed_renderable p filter
  refine ⟨shown, ?_, fun entry => ne_nil_of_mem_books, sublistForall₂_books p filter, rfl, ?_, ?_⟩
  · rw [endpoints_eq_map_placed, shown]
    rfl
  · rw [renderable_renderable, renderable_eq]
    simp only [Bool.and_self]
  · intro other
    rw [renderable_renderable, renderable_renderable]
    simp only [Bool.and_comm]

/-- An endpoint of the given route. -/
def routeOf (uri : String) : Endpoint := { Endpoint.new "e" with uri := uri }

/-- A project with an empty book, an ignored chapter, a chapter some of whose endpoints are shown, and
a chapter none of whose endpoints is. -/
def catalogue : Project :=
  { Project.new "catalogue" "Catalogue" with
    books := [
      ("drafts", Book.new "drafts"),
      ("default", ⟨"default", [
        { Chapter.new "old" with isIgnored := true, endpoints := [routeOf "/a/0"] },
        { Chapter.new "new" with
          endpoints := [{ routeOf "/a/1" with isIgnored := true }, routeOf "/a/2", routeOf "/b"] },
        Chapter.new "none"]⟩),
      ("admin", ⟨"admin", [{ Chapter.new "reset" with endpoints := [routeOf "/b/1"] }]⟩)] }

/-- Below `/a`, one book with one chapter and one endpoint is left of it. -/
theorem catalogue_below_a :
    ∃ filter entry, PathFilter.ofPatterns ["/a/**"] [] = .ok filter ∧
      (catalogue.renderable filter).endpoints.map Endpoint.uri = ["/a/2"] ∧
      (catalogue.renderable filter).books = [entry] ∧ entry.1 = "default" ∧
      entry.2.chapters ≠ [] ∧ ∀ c ∈ entry.2.chapters, c.endpoints ≠ [] := by
  have built : (PathFilter.ofPatterns ["/a/**"] []).toOption.map (fun filter =>
      ((catalogue.renderable filter).books.map Prod.fst,
        catalogue.placed.filter (isShown (shows filter)) |>.map fun x => x.endpoint.uri)) =
      some (["default"], ["/a/2"]) := by decide +kernel
  cases ok : PathFilter.ofPatterns ["/a/**"] [] with
  | error fault =>
    rw [ok] at built
    cases built
  | ok filter =>
    rw [ok] at built
    obtain ⟨keys, uris⟩ := Prod.mk.inj (Option.some.inj built)
    obtain ⟨-, endpoints, nonempty, -⟩ := renderable_keeps_shown catalogue filter
    obtain ⟨entry, books, key⟩ := List.map_eq_singleton_iff.mp keys
    refine ⟨filter, entry, rfl, ?_, books, key, nonempty entry ?_⟩
    · rw [endpoints, List.map_map]
      exact uris
    · rw [books]
      exact List.mem_singleton_self entry

end Project
end RouteBook
