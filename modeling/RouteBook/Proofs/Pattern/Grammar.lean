import RouteBook.Proofs.Pattern.Meaning
/-! # Which texts are patterns

A text without classes and escapes is a pattern iff it can be read off its pieces: it starts with a
slash, two stars are a piece of their own, and the braces of a piece are closed groups
(`IsPatternText`, `parse_iff_isPatternText`).

Nothing else can go wrong.  A group becomes a star, so globs may have stars side by side where the
text has none, as `{a}{b}` has, and these are not looked at again.  Nor can the glob itself be
malformed then, since only a class or an escape can be (`Glob.exists_readTokens_eq_ok`).
-/
namespace RouteBook
namespace PathPattern

/-! ### Groups -/

/-- **Characters and closed groups**, with no brace in a group and none outside of them. -/
inductive Grouped : List Char → Prop where
  | nil : Grouped []
  | char {c cs} : c ≠ '\x7b' → c ≠ '\x7d' → Grouped cs → Grouped (c :: cs)
  | group {name cs} : '\x7b' ∉ name → '\x7d' ∉ name → Grouped cs →
      Grouped ('\x7b' :: (name ++ '\x7d' :: cs))

theorem replaceGroups_cons {c : Char} (hopen : c ≠ '\x7b') (hclose : c ≠ '\x7d') (cs : List Char) :
    replaceGroups false (c :: cs) = (replaceGroups false cs).map (c :: ·) := by
  rw [replaceGroups, if_neg Bool.false_ne_true, if_neg hopen, if_neg hclose]

/-- A group is replaced by a star. -/
theorem replaceGroups_group {name : List Char} (hopen : '\x7b' ∉ name) (hclose : '\x7d' ∉ name)
    (cs : List Char) :
    replaceGroups false ('\x7b' :: (name ++ '\x7d' :: cs)) =
      (replaceGroups false cs).map ('*' :: ·) := by
  have inside : replaceGroups true (name ++ '\x7d' :: cs) =
      (replaceGroups false cs).map ('*' :: ·) := by
    induction name with
    | nil => rfl
    | cons c name ih =>
      obtain ⟨hopenc, hopen⟩ := List.ne_and_not_mem_of_not_mem_cons hopen
      obtain ⟨hclosec, hclose⟩ := List.ne_and_not_mem_of_not_mem_cons hclose
      rw [List.cons_append, replaceGroups, if_pos rfl, if_neg hclosec.symm, if_neg hopenc.symm,
        ih hopen hclose]
  exact inside

/-- The groups of a grouped piece can be replaced. -/
theorem Grouped.exists_replaceGroups {cs : List Char} (h : Grouped cs) :
    ∃ glob, replaceGroups false cs = .ok glob := by
  induction h with
  | nil => exact ⟨[], rfl⟩
  | @char c _ hopen hclose _ ih =>
    obtain ⟨glob, hglob⟩ := ih
    refine ⟨c :: glob, ?_⟩
    rw [replaceGroups_cons hopen hclose, hglob]
    rfl
  | group hopen hclose _ ih =>
    obtain ⟨glob, hglob⟩ := ih
    refine ⟨'*' :: glob, ?_⟩
    rw [replaceGroups_group hopen hclose, hglob]
    rfl

/-- What has a glob is grouped. -/
theorem Replaced.grouped {cs glob : List Char} (h : Replaced cs glob) : Grouped cs := by
  induction h with
  | nil => exact .nil
  | char hopen hclose _ ih => exact .char hopen hclose ih
  | group hopen hclose _ ih => exact .group hopen hclose ih

/-! ### Segments -/

theorem hasDeep_iff {cs : List Char} : hasDeep cs = true ↔ deep <:+: cs := by
  fun_induction hasDeep cs with
  | case1 rest => exact ⟨fun _ => ⟨[], rest, rfl⟩, fun _ => rfl⟩
  | case2 c cs hstars ih =>
    have front : ¬ deep <+: c :: cs := by
      rintro ⟨rest, hrest⟩
      obtain ⟨hc, htail⟩ := List.cons.inj hrest
      exact hstars rest hc.symm htail.symm
    rw [ih, List.infix_cons_iff, or_iff_right front]
  | case3 => simp [deep]

/-- **The segments that have a glob.** -/
theorem exists_segmentGlob_iff {segment : List Char} :
    (∃ glob, segmentGlob segment = .ok glob) ↔
      (segment = deep ∨ ¬ deep <:+: segment) ∧ Grouped segment := by
  have inside : segment ≠ deep ∧ hasDeep segment = true ↔
      ¬ (segment = deep ∨ ¬ deep <:+: segment) := by
    rw [hasDeep_iff, not_or, Decidable.not_not]
  unfold segmentGlob
  by_cases hstars : segment = deep ∨ ¬ deep <:+: segment
  · rw [if_neg fun h => inside.mp h hstars]
    constructor
    · rintro ⟨glob, hglob⟩
      exact ⟨hstars, ((replaced_of_replaceGroups hglob).1 rfl).grouped⟩
    · rintro ⟨-, hgrouped⟩
      exact hgrouped.exists_replaceGroups
  · rw [if_pos (inside.mpr hstars)]
    constructor
    · rintro ⟨glob, hglob⟩
      cases hglob
    · rintro ⟨h, -⟩
      exact absurd h hstars

/-! ### Paths -/

/-- Paths without classes and escapes compile. -/
theorem exists_compile_eq_ok {globs : List (List Char)}
    (plain : ∀ glob ∈ globs, '[' ∉ glob ∧ '\\' ∉ glob) :
    ∃ tokens, compile (path globs) = .ok tokens := by
  have absent : ∀ c, c ≠ '/' → (∀ glob ∈ globs, c ∉ glob) → c ∉ path globs := by
    intro c hslash hglobs hmem
    rcases List.mem_cons.mp hmem with he | hmem
    · exact hslash he
    · rcases Text.mem_of_mem_joinWith hmem with he | ⟨glob, hglob, hc⟩
      · exact hslash (List.mem_singleton.mp he)
      · exact hglobs glob hglob hc
  obtain ⟨tokens, htokens⟩ : ∃ tokens, Glob.parse (path globs) = .ok tokens :=
    Glob.exists_readTokens_eq_ok (absent '[' (by decide) fun glob hglob => (plain glob hglob).1)
      (absent '\\' (by decide) fun glob hglob => (plain glob hglob).2)
  refine ⟨tokens, ?_⟩
  rw [compile, htokens]
  rfl

/-- The glob of a segment has no classes and no escapes that the segment does not have. -/
theorem plain_of_segmentGlob {segment glob : List Char} (h : segmentGlob segment = .ok glob)
    (plain : ∀ c ∈ segment, c ≠ '[' ∧ c ≠ '\\') : '[' ∉ glob ∧ '\\' ∉ glob := by
  have absent : ∀ c, c ≠ '*' → c ∉ segment → c ∉ glob := by
    intro c hstar hc hmem
    rcases (replaced_of_segmentGlob h).mem_cases c hmem with he | ⟨hmem, -⟩
    · exact hstar he
    · exact hc hmem
  constructor
  · exact absent '[' (by decide) fun hmem => (plain _ hmem).1 rfl
  · exact absent '\\' (by decide) fun hmem => (plain _ hmem).2 rfl

/-- **A trimmed text has globs** iff it starts with a slash and every segment has one. -/
theorem exists_globsOf_iff {cs : List Char} (plain : ∀ c ∈ cs, c ≠ '[' ∧ c ≠ '\\') :
    (∃ globs, globsOf cs = .ok globs) ↔
      cs.head? = some '/' ∧ ∀ s ∈ segments cs, ∃ glob, segmentGlob s = .ok glob := by
  rw [← exists_mapM_eq_ok_iff]
  unfold globsOf
  dsimp only
  by_cases hslash : cs.head? = some '/'
  · have hne : cs ≠ [] := by
      rintro rfl
      cases hslash
    rw [if_neg hne, if_neg (not_not_intro hslash)]
    constructor
    · rintro ⟨globs, h⟩
      obtain ⟨segmentGlobs, hsegments, -⟩ := bind_eq_ok h
      exact ⟨hslash, segmentGlobs, hsegments⟩
    · rintro ⟨-, segmentGlobs, hsegments⟩
      have plainGlobs : ∀ glob ∈ segmentGlobs, '[' ∉ glob ∧ '\\' ∉ glob := by
        intro glob hglob
        have hmem : Except.ok glob ∈ (segments cs).map segmentGlob := by
          rw [mapM_eq_ok hsegments]
          exact List.mem_map_of_mem hglob
        obtain ⟨s, hs, hsglob⟩ := List.mem_map.mp hmem
        exact plain_of_segmentGlob hsglob fun c hc => plain c (subset_of_mem_segments hs hc)
      have plainShort : ∀ glob ∈ segmentGlobs.dropLast, '[' ∉ glob ∧ '\\' ∉ glob :=
        fun glob hglob => plainGlobs glob ((List.dropLast_sublist segmentGlobs).subset hglob)
      rw [hsegments]
      apply exists_mapM_eq_ok_iff.mpr
      intro glob hglob
      split at hglob
      · simp only [List.mem_cons, List.not_mem_nil, or_false] at hglob
        rcases hglob with rfl | rfl
        · exact exists_compile_eq_ok plainGlobs
        · exact exists_compile_eq_ok plainShort
      · rw [List.mem_singleton.mp hglob]
        exact exists_compile_eq_ok plainGlobs
  · constructor
    · rintro ⟨globs, h⟩
      by_cases hnil : cs = []
      · rw [if_pos hnil] at h
        cases h
      · rw [if_neg hnil, if_pos hslash] at h
        cases h
    · rintro ⟨h, -⟩
      exact absurd h hslash

/-! ### Patterns -/

/-- **The form of a pattern**, said of its pieces between slashes. -/
structure IsPatternText (cs : List Char) : Prop where
  slash : cs.head? = some '/'
  /-- A piece with two stars side by side has nothing else. -/
  stars : ∀ piece ∈ Text.splitAt '/' cs, piece ≠ [] → piece = deep ∨ ¬ deep <:+: piece
  /-- The braces of a piece are closed groups. -/
  groups : ∀ piece ∈ Text.splitAt '/' cs, Grouped piece

/-- Empty pieces make no difference. -/
theorem isPatternText_iff {cs : List Char} :
    IsPatternText cs ↔
      cs.head? = some '/' ∧ ∀ s ∈ segments cs, ∃ glob, segmentGlob s = .ok glob := by
  have mem_segments : ∀ {piece}, piece ∈ segments cs ↔
      piece ∈ Text.splitAt '/' cs ∧ piece ≠ [] := by
    intro piece
    rw [segments, List.mem_filter, decide_eq_true_iff]
  constructor
  · rintro ⟨hslash, hstars, hgroups⟩
    refine ⟨hslash, fun s hs => ?_⟩
    obtain ⟨hpiece, hne⟩ := mem_segments.mp hs
    exact exists_segmentGlob_iff.mpr ⟨hstars s hpiece hne, hgroups s hpiece⟩
  · rintro ⟨hslash, hsegments⟩
    have inner : ∀ piece ∈ Text.splitAt '/' cs, piece ≠ [] →
        (piece = deep ∨ ¬ deep <:+: piece) ∧ Grouped piece := by
      intro piece hpiece hne
      exact exists_segmentGlob_iff.mp (hsegments piece (mem_segments.mpr ⟨hpiece, hne⟩))
    refine ⟨hslash, fun piece hpiece hne => (inner piece hpiece hne).1, fun piece hpiece => ?_⟩
    by_cases hnil : piece = []
    · rw [hnil]
      exact .nil
    · exact (inner piece hpiece hnil).2

theorem exists_parse_iff {text : String} :
    (∃ p, parse text = .ok p) ↔ ∃ globs, globsOf (Text.trim text.toList) = .ok globs := by
  unfold parse
  dsimp only
  cases globsOf (Text.trim text.toList) with
  | error fault => exact ⟨nofun, nofun⟩
  | ok globs => exact ⟨fun _ => ⟨globs, rfl⟩, fun _ => ⟨_, rfl⟩⟩

/-- A pattern is known by its text without the blanks around it. -/
theorem source_of_parse {text : String} {p : PathPattern} (h : parse text = .ok p) :
    p.source = Text.trimmed text := by
  unfold parse at h
  dsimp only at h
  split at h
  · cases h
  · cases h
    rfl

/-- **Which texts are patterns.**  A text without classes and escapes is a pattern iff it has the
form of one, apart from blanks around it; and the pattern is known by the text without them. -/
theorem parse_iff_isPatternText (text : String)
    (plain : ∀ c ∈ text.toList, c ≠ '[' ∧ c ≠ '\\') :
    ((∃ p, parse text = .ok p) ↔ IsPatternText (Text.trim text.toList)) ∧
      ∀ p, parse text = .ok p → p.source = Text.trimmed text := by
  refine ⟨?_, fun p => source_of_parse⟩
  rw [exists_parse_iff, isPatternText_iff]
  exact exists_globsOf_iff fun c hc => plain c (Text.subset_trim _ hc)

/-- Groups may stand side by side and next to a star, but not one within another. -/
theorem isPatternText_adjacent_groups :
    IsPatternText (Text.trim " /\x7ba\x7d\x7bb\x7d*//**/v?.js ".toList) ∧
      (∀ p, parse " /\x7ba\x7d\x7bb\x7d*//**/v?.js " = .ok p →
        p.source = "/\x7ba\x7d\x7bb\x7d*//**/v?.js") ∧
      ¬ IsPatternText (Text.trim "/\x7ba\x7bb\x7d\x7d".toList) := by
  have plain : (" /\x7ba\x7d\x7bb\x7d*//**/v?.js ".toList.all fun c => c ≠ '[' ∧ c ≠ '\\') = true := by
    decide +kernel
  obtain ⟨p, hp⟩ := Option.isSome_iff_exists.mp
    (by decide +kernel : (parse " /\x7ba\x7d\x7bb\x7d*//**/v?.js ").toOption.isSome = true)
  obtain ⟨accepted, source⟩ := parse_iff_isPatternText " /\x7ba\x7d\x7bb\x7d*//**/v?.js "
    fun c hc => of_decide_eq_true (List.all_eq_true.mp plain c hc)
  have nestedPlain : ("/\x7ba\x7bb\x7d\x7d".toList.all fun c => c ≠ '[' ∧ c ≠ '\\') = true := by
    decide +kernel
  obtain ⟨nested, -⟩ := parse_iff_isPatternText "/\x7ba\x7bb\x7d\x7d"
    fun c hc => of_decide_eq_true (List.all_eq_true.mp nestedPlain c hc)
  refine ⟨accepted.mp ⟨p, ok_of_toOption hp⟩, fun p hp => (source p hp).trans (by decide +kernel), ?_⟩
  intro form
  obtain ⟨q, hq⟩ := nested.mpr form
  have refused : (parse "/\x7ba\x7bb\x7d\x7d").toOption = none := by decide +kernel
  rw [hq] at refused
  cases refused

end PathPattern
end RouteBook
