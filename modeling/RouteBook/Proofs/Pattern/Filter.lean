import RouteBook.Pattern.PathFilter
import RouteBook.Proofs.Pattern.GlobSet
/-! # Filters made of patterns

A filter is made of two lists of texts, and keeps of them nothing but globs.  Each text is read as a
pattern by itself, so either all of them are patterns or the first one that is none gives the error
(`ofPatterns_eq_ok_iff`, `ofPatterns_eq_error_iff`).

The globs of all patterns of a list lie in one list side by side.  A route is matched by one of them
iff it is covered by one of the patterns (`any_isMatch_flatMap`).  And there are no globs at all only
if there are no patterns, because every pattern has a glob (`globs_ne_nil_of_parse`); so it is the
patterns that select, and not their globs, which decide whether the others are looked at.

So a filter says what its patterns say whenever the sets of their globs find what one of them matches
(`keepsBy_eq`).  That is so for every route but those whose last segment goes up, because a path has
no extension there (`answersBy_finds`).
-/
namespace RouteBook

namespace PathPattern

/-- The texts are patterns, one by one. -/
def ReadAs (texts : List String) (ps : List PathPattern) : Prop := texts.map parse = ps.map .ok

/-- The error is that of the first text that is no pattern. -/
def FirstMalformed (texts : List String) (fault : InvalidPattern) : Prop :=
  ∃ front text back, texts = front ++ text :: back ∧
    (∀ s ∈ front, ∃ p, parse s = .ok p) ∧ parse text = .error fault

theorem readAs_nil : ReadAs [] [] := rfl

theorem readAs_cons_iff {text : String} {texts : List String} {ps : List PathPattern} :
    ReadAs (text :: texts) ps ↔
      ∃ p rest, ps = p :: rest ∧ parse text = .ok p ∧ ReadAs texts rest := by
  unfold ReadAs
  constructor
  · intro h
    obtain ⟨p, rest, rfl, hp, hrest⟩ := List.map_eq_cons_iff.mp (h.symm.trans List.map_cons)
    exact ⟨p, rest, rfl, hp.symm, hrest.symm⟩
  · rintro ⟨p, rest, rfl, hp, hrest⟩
    rw [List.map_cons, List.map_cons, hp, hrest]

/-- There are such patterns iff every text is one. -/
theorem exists_readAs_iff {texts : List String} :
    (∃ ps, ReadAs texts ps) ↔ ∀ text ∈ texts, ∃ p, parse text = .ok p := by
  induction texts with
  | nil => exact ⟨fun _ _ h => absurd h List.not_mem_nil, fun _ => ⟨[], readAs_nil⟩⟩
  | cons text texts ih =>
    rw [List.forall_mem_cons, ← ih]
    constructor
    · rintro ⟨ps, h⟩
      obtain ⟨p, rest, -, hp, hrest⟩ := readAs_cons_iff.mp h
      exact ⟨⟨p, hp⟩, rest, hrest⟩
    · rintro ⟨⟨p, hp⟩, rest, hrest⟩
      exact ⟨p :: rest, readAs_cons_iff.mpr ⟨p, rest, rfl, hp, hrest⟩⟩

theorem not_firstMalformed_nil {fault : InvalidPattern} : ¬ FirstMalformed [] fault := by
  rintro ⟨front, text, back, h, -⟩
  exact List.append_ne_nil_of_right_ne_nil front (List.cons_ne_nil text back) h.symm

/-- Of two lists, the second counts only if all texts of the first are patterns. -/
theorem firstMalformed_append_iff {texts more : List String} {fault : InvalidPattern} :
    FirstMalformed (texts ++ more) fault ↔
      FirstMalformed texts fault ∨
        (∀ text ∈ texts, ∃ p, parse text = .ok p) ∧ FirstMalformed more fault := by
  constructor
  · rintro ⟨front, text, back, h, good, bad⟩
    -- the malformed text is in the second list, perhaps its head, or else in the first one
    rcases List.append_eq_append_iff.mp h with ⟨middle, rfl, rfl⟩ | ⟨middle, rfl, hmiddle⟩
    · refine .inr ⟨fun s hs => good s (List.mem_append_left middle hs), middle, text, back, rfl,
        fun s hs => good s (List.mem_append_right texts hs), bad⟩
    · cases middle with
      | nil =>
        refine .inr ⟨?_, [], text, back, hmiddle.symm, fun _ hs => absurd hs List.not_mem_nil, bad⟩
        rw [List.append_nil]
        exact good
      | cons first middle =>
        obtain ⟨rfl, -⟩ := List.cons.inj hmiddle
        exact .inl ⟨front, text, middle, rfl, good, bad⟩
  · rintro (⟨front, text, back, rfl, good, bad⟩ | ⟨goodTexts, front, text, back, rfl, good, bad⟩)
    · exact ⟨front, text, back ++ more, List.append_assoc .., good, bad⟩
    · refine ⟨texts ++ front, text, back, (List.append_assoc ..).symm, fun s hs => ?_, bad⟩
      rcases List.mem_append.mp hs with hs | hs
      · exact goodTexts s hs
      · exact good s hs

theorem firstMalformed_cons_iff {text : String} {texts : List String} {fault : InvalidPattern} :
    FirstMalformed (text :: texts) fault ↔
      parse text = .error fault ∨ (∃ p, parse text = .ok p) ∧ FirstMalformed texts fault := by
  have single : FirstMalformed [text] fault ↔ parse text = .error fault := by
    constructor
    · rintro ⟨front, s, back, h, -, bad⟩
      obtain ⟨rfl, rfl, rfl⟩ | h := List.singleton_eq_append_iff.mp h
      · exact bad
      · exact absurd h.2 (List.cons_ne_nil _ _)
    · intro bad
      exact ⟨[], text, [], rfl, fun _ hs => absurd hs List.not_mem_nil, bad⟩
  have append : FirstMalformed ([text] ++ texts) fault ↔ FirstMalformed [text] fault ∨
      (∀ s ∈ [text], ∃ p, parse s = .ok p) ∧ FirstMalformed texts fault :=
    firstMalformed_append_iff
  rw [List.forall_mem_singleton, single] at append
  exact append

/-- Every pattern has a glob. -/
theorem globs_ne_nil_of_parse {text : String} {p : PathPattern} (h : parse text = .ok p) :
    p.globs ≠ [] := by
  obtain ⟨tokens, htokens, -⟩ := (accepted_of_parse h).exists_parse_eq_ok
  exact List.ne_nil_of_mem htokens

theorem flatMap_globs_eq_nil_iff {texts : List String} {ps : List PathPattern}
    (h : ReadAs texts ps) : ps.flatMap globs = [] ↔ texts = [] := by
  cases texts with
  | nil =>
    obtain rfl := List.map_eq_nil_iff.mp h.symm
    exact ⟨fun _ => rfl, fun _ => rfl⟩
  | cons text texts =>
    obtain ⟨p, rest, rfl, hp, -⟩ := readAs_cons_iff.mp h
    rw [List.flatMap_cons, List.append_eq_nil_iff]
    exact ⟨fun hnil => absurd hnil.1 (globs_ne_nil_of_parse hp),
      fun hnil => absurd hnil (List.cons_ne_nil text texts)⟩

/-- **One of the globs matches iff one of the patterns covers**, however the route is written. -/
theorem any_isMatch_flatMap (ps : List PathPattern) (uri : String) :
    ((ps.flatMap globs).any fun glob => Glob.isMatch glob (Uri.parse uri).text.toList) =
      ps.any fun p => p.covers uri := by
  rw [List.any_flatMap]
  rfl

end PathPattern

namespace PathFilter
open PathPattern

/-! ### One list of patterns -/

theorem globsOf_cons (text : String) (texts : List String) :
    globsOf (text :: texts) = do
      let p ← parse text
      let globs ← globsOf texts
      return p.globs ++ globs := rfl

theorem globsOf_eq_ok_iff {texts : List String} {globs : List (List Glob.Token)} :
    globsOf texts = .ok globs ↔
      ∃ ps, ReadAs texts ps ∧ globs = ps.flatMap PathPattern.globs := by
  induction texts generalizing globs with
  | nil =>
    constructor
    · intro h
      cases h
      exact ⟨[], readAs_nil, rfl⟩
    · rintro ⟨ps, h, rfl⟩
      obtain rfl := List.map_eq_nil_iff.mp h.symm
      rfl
  | cons text texts ih =>
    rw [globsOf_cons]
    constructor
    · intro h
      obtain ⟨p, hp, h⟩ := bind_eq_ok h
      obtain ⟨rest, hrest, h⟩ := bind_eq_ok h
      obtain ⟨ps, hps, rfl⟩ := ih.mp hrest
      cases h
      exact ⟨p :: ps, readAs_cons_iff.mpr ⟨p, ps, rfl, hp, hps⟩, List.flatMap_cons.symm⟩
    · rintro ⟨ps, h, rfl⟩
      obtain ⟨p, rest, rfl, hp, hrest⟩ := readAs_cons_iff.mp h
      rw [hp, ih.mpr ⟨rest, hrest, rfl⟩, List.flatMap_cons]
      rfl

theorem globsOf_eq_error_iff {texts : List String} {fault : InvalidPattern} :
    globsOf texts = .error fault ↔ FirstMalformed texts fault := by
  induction texts with
  | nil =>
    refine ⟨fun h => ?_, fun h => absurd h not_firstMalformed_nil⟩
    cases h
  | cons text texts ih =>
    rw [firstMalformed_cons_iff, ← ih, globsOf_cons, bind_eq_error_iff]
    refine or_congr_right ⟨?_, ?_⟩
    · rintro ⟨p, hp, h⟩
      obtain h | ⟨rest, -, h⟩ := bind_eq_error_iff.mp h
      · exact ⟨⟨p, hp⟩, h⟩
      · cases h
    · rintro ⟨⟨p, hp⟩, h⟩
      exact ⟨p, hp, bind_eq_error_iff.mpr (.inl h)⟩

/-! ### Both lists -/

theorem ofPatterns_eq_ok_iff {only exclude : List String} {filter : PathFilter} :
    ofPatterns only exclude = .ok filter ↔
      ∃ ps qs, ReadAs only ps ∧ ReadAs exclude qs ∧
        filter = ⟨ps.flatMap PathPattern.globs, qs.flatMap PathPattern.globs⟩ := by
  unfold ofPatterns
  constructor
  · intro h
    obtain ⟨selecting, hselecting, h⟩ := bind_eq_ok h
    obtain ⟨excluding, hexcluding, h⟩ := bind_eq_ok h
    obtain ⟨ps, hps, rfl⟩ := globsOf_eq_ok_iff.mp hselecting
    obtain ⟨qs, hqs, rfl⟩ := globsOf_eq_ok_iff.mp hexcluding
    cases h
    exact ⟨ps, qs, hps, hqs, rfl⟩
  · rintro ⟨ps, qs, hps, hqs, rfl⟩
    rw [globsOf_eq_ok_iff.mpr ⟨ps, hps, rfl⟩, globsOf_eq_ok_iff.mpr ⟨qs, hqs, rfl⟩]
    rfl

theorem exists_ofPatterns_iff {only exclude : List String} :
    (∃ filter, ofPatterns only exclude = .ok filter) ↔
      ∀ text ∈ only ++ exclude, ∃ p, parse text = .ok p := by
  rw [List.forall_mem_append, ← exists_readAs_iff, ← exists_readAs_iff]
  constructor
  · rintro ⟨filter, h⟩
    obtain ⟨ps, qs, hps, hqs, -⟩ := ofPatterns_eq_ok_iff.mp h
    exact ⟨⟨ps, hps⟩, qs, hqs⟩
  · rintro ⟨⟨ps, hps⟩, qs, hqs⟩
    exact ⟨_, ofPatterns_eq_ok_iff.mpr ⟨ps, qs, hps, hqs, rfl⟩⟩

/-- The patterns that select are read before those that exclude. -/
theorem ofPatterns_eq_error_iff {only exclude : List String} {fault : InvalidPattern} :
    ofPatterns only exclude = .error fault ↔ FirstMalformed (only ++ exclude) fault := by
  rw [firstMalformed_append_iff, ← exists_readAs_iff, ← globsOf_eq_error_iff,
    ← globsOf_eq_error_iff]
  unfold ofPatterns
  rw [bind_eq_error_iff]
  refine or_congr_right ⟨?_, ?_⟩
  · rintro ⟨selecting, hselecting, h⟩
    obtain ⟨ps, hps, -⟩ := globsOf_eq_ok_iff.mp hselecting
    obtain h | ⟨excluding, -, h⟩ := bind_eq_error_iff.mp h
    · exact ⟨⟨ps, hps⟩, h⟩
    · cases h
  · rintro ⟨⟨ps, hps⟩, h⟩
    exact ⟨_, globsOf_eq_ok_iff.mpr ⟨ps, hps, rfl⟩, bind_eq_error_iff.mpr (.inl h)⟩

/-- Sets of globs, asked about a route, answer whether one of the globs matches it. -/
def AnswersBy (asks : List (List Glob.Token) → List Char → Bool) (uri : String) : Prop :=
  ∀ globs, asks globs (Uri.parse uri).text.toList =
    globs.any fun glob => Glob.isMatch glob (Uri.parse uri).text.toList

/-- The sets that are used do so if the last segment of the route does not go up. -/
theorem answersBy_finds {uri : String} (h : (Uri.parse uri).segments.getLast? ≠ some "..") :
    AnswersBy (Glob.finds Glob.isFileName) uri :=
  Glob.finds_eq_any ((Glob.isFileName_lastName_iff fun _ hs => Uri.isSegment_parse hs).mpr h)

/-- What a filter keeps, said of the patterns that it is made of. -/
theorem keepsBy_eq {only : List String} {ps qs : List PathPattern} (hps : ReadAs only ps)
    {asks : List (List Glob.Token) → List Char → Bool} {uri : String} (answers : AnswersBy asks uri) :
    keepsBy asks ⟨ps.flatMap PathPattern.globs, qs.flatMap PathPattern.globs⟩ uri =
      if only = [] then !qs.any fun q => q.covers uri else ps.any fun p => p.covers uri := by
  unfold keepsBy
  dsimp only
  rw [answers, answers, any_isMatch_flatMap, any_isMatch_flatMap]
  by_cases hnil : only = []
  · rw [if_pos hnil, if_pos (List.isEmpty_iff.mpr ((flatMap_globs_eq_nil_iff hps).mpr hnil))]
  · have globs : ¬ (ps.flatMap PathPattern.globs).isEmpty = true := fun h =>
      hnil ((flatMap_globs_eq_nil_iff hps).mp (List.isEmpty_iff.mp h))
    rw [if_neg hnil, if_neg globs]

/-- **A filter says what its patterns say.**  There is one iff all texts of both lists are patterns,
and otherwise the error is that of the first text that is none, those that select before those that
exclude.  If any pattern selects, a route is kept iff one of those covers it; and if none does, iff
no pattern that excludes covers it.  That is so wherever the sets of globs answer whether one of them
matches, and the sets that are used do so for every route whose last segment does not go up. -/
theorem ofPatterns_keeps (only exclude : List String) :
    ((∃ filter, ofPatterns only exclude = .ok filter) ↔
      ∀ text ∈ only ++ exclude, ∃ p, parse text = .ok p) ∧
    (∀ fault, ofPatterns only exclude = .error fault ↔
      FirstMalformed (only ++ exclude) fault) ∧
    ∀ filter, ofPatterns only exclude = .ok filter →
      ∃ ps qs, ReadAs only ps ∧ ReadAs exclude qs ∧
        (∀ asks uri, AnswersBy asks uri → filter.keepsBy asks uri =
          if only = [] then !qs.any fun q => q.covers uri else ps.any fun p => p.covers uri) ∧
        ∀ uri, (Uri.parse uri).segments.getLast? ≠ some ".." → filter.keeps uri =
          if only = [] then !qs.any fun q => q.covers uri else ps.any fun p => p.covers uri := by
  refine ⟨exists_ofPatterns_iff, fun fault => ofPatterns_eq_error_iff, fun filter ok => ?_⟩
  obtain ⟨ps, qs, hps, hqs, rfl⟩ := ofPatterns_eq_ok_iff.mp ok
  exact ⟨ps, qs, hps, hqs, fun asks uri answers => keepsBy_eq hps answers,
    fun uri last => keepsBy_eq hps (answersBy_finds last)⟩

/-- A selecting pattern goes before an excluding one, also for a route that is not in normal form. -/
theorem keeps_selected_excluded :
    ∃ filter, ofPatterns ["/a/**"] ["/a/b"] = .ok filter ∧ filter.keeps "a//b/" = true ∧
      filter.keeps "/c" = false := by
  obtain ⟨built, -, kept⟩ := ofPatterns_keeps ["/a/**"] ["/a/b"]
  have patterns : ∀ text ∈ ["/a/**", "/a/b"], ∃ p, parse text = .ok p := by
    have read : ∀ text ∈ ["/a/**", "/a/b"], (parse text).toOption.isSome = true := by
      decide +kernel
    intro text htext
    obtain ⟨p, hp⟩ := Option.isSome_iff_exists.mp (read text htext)
    exact ⟨p, ok_of_toOption hp⟩
  obtain ⟨filter, ok⟩ := built.mpr patterns
  obtain ⟨ps, qs, hps, -, -, keeps⟩ := kept filter ok
  obtain ⟨p, rest, rfl, hp, hrest⟩ := readAs_cons_iff.mp hps
  obtain rfl := List.map_eq_nil_iff.mp hrest.symm
  have covers : ∀ uri, (Uri.parse uri).segments.getLast? ≠ some ".." →
      filter.keeps uri = p.covers uri := fun uri last => by
    rw [keeps uri last, if_neg (List.cons_ne_nil _ _), List.any_cons, List.any_nil, Bool.or_false]
  have here : (parse "/a/**").toOption.map (fun p => (p.covers "a//b/", p.covers "/c")) =
      some (true, false) := by decide +kernel
  rw [hp] at here
  obtain ⟨inside, outside⟩ := Prod.mk.inj (Option.some.inj here)
  exact ⟨filter, ok, (covers _ (by decide +kernel)).trans inside,
    (covers _ (by decide +kernel)).trans outside⟩

end PathFilter
end RouteBook
