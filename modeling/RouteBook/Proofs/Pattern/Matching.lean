import RouteBook.Proofs.Pattern.Bytes
/-! # What a glob matches

Matching follows all the ways in which tokens can match at the front of a path at the same time.
Said of a single way: every token *takes* some bytes (`Token.Takes`), and the bytes that the tokens
take, one after another, are the path (`Matches`).  The two are the same (`isMatch_iff_matches`).

Only slashes, classes and `**` take a slash.  A glob that has neither `**` nor a class for a slash
matches paths with as many slashes as it has itself (`count_slash_of_matches`).
-/
namespace RouteBook
namespace Glob

/-! ### What a token takes -/

/-- The bytes that a token may match. -/
def Token.Takes (taken : List UInt8) : Token → Prop
  | .literal c => taken = String.utf8EncodeChar c
  | .anyOne => ∃ b, b ≠ slash ∧ taken = [b]
  | .anyRun => slash ∉ taken
  | .deepStart => taken = [] ∨ ∃ run, taken = run ++ [slash]
  | .deepBetween => ∃ run, (run = [] ∨ ∃ bs, run = slash :: bs) ∧ taken = run ++ [slash]
  | .deepEnd => ∃ bs, taken = slash :: bs
  | .oneOf negated ranges => ∃ b, inRanges ranges b ≠ negated ∧ taken = [b]

theorem mem_afterRun_iff {path rest : List UInt8} :
    rest ∈ afterRun path ↔ ∃ taken, slash ∉ taken ∧ taken ++ rest = path := by
  induction path with
  | nil =>
    rw [afterRun, List.mem_singleton]
    constructor
    · rintro rfl
      exact ⟨[], List.not_mem_nil, rfl⟩
    · rintro ⟨taken, -, h⟩
      exact (List.append_eq_nil_iff.mp h).2
  | cons b bs ih =>
    rw [afterRun, List.mem_cons]
    constructor
    · rintro (rfl | h)
      · exact ⟨[], List.not_mem_nil, rfl⟩
      · split at h
        · exact absurd h List.not_mem_nil
        · rename_i hb
          obtain ⟨taken, hslash, rfl⟩ := ih.mp h
          refine ⟨b :: taken, ?_, rfl⟩
          exact fun hmem => (List.mem_cons.mp hmem).elim (fun he => hb he.symm) hslash
    · rintro ⟨taken, hslash, h⟩
      cases taken with
      | nil => exact .inl h
      | cons b' taken =>
        obtain ⟨rfl, rfl⟩ := List.cons.inj h
        have hne : ¬ b' = slash := fun hb => hslash (by rw [hb]; exact List.mem_cons_self)
        rw [if_neg hne]
        exact .inr (ih.mpr ⟨taken, fun hmem => hslash (List.mem_cons_of_mem b' hmem), rfl⟩)

theorem mem_afterSlash_iff {path rest : List UInt8} :
    rest ∈ afterSlash path ↔ ∃ run, run ++ slash :: rest = path := by
  induction path with
  | nil => simp [afterSlash]
  | cons b bs ih =>
    have behind : rest ∈ afterSlash bs ↔ ∃ run, b :: run ++ slash :: rest = b :: bs := by
      simp [ih]
    rw [afterSlash]
    constructor
    · intro h
      split at h
      · rename_i hb
        rcases List.mem_cons.mp h with rfl | h
        · exact ⟨[], by rw [hb, List.nil_append]⟩
        · obtain ⟨run, hrun⟩ := behind.mp h
          exact ⟨b :: run, hrun⟩
      · obtain ⟨run, hrun⟩ := behind.mp h
        exact ⟨b :: run, hrun⟩
    · rintro ⟨run, hrun⟩
      cases run with
      | nil =>
        obtain ⟨rfl, rfl⟩ := List.cons.inj hrun
        rw [if_pos rfl]
        exact List.mem_cons_self
      | cons b' run =>
        obtain ⟨rfl, rfl⟩ := List.cons.inj hrun
        have h := ih.mpr ⟨run, rfl⟩
        split
        · exact List.mem_cons_of_mem _ h
        · exact h

theorem mem_ends_iff {path rest : List UInt8} :
    rest ∈ ends path ↔ ∃ taken, taken ++ rest = path := by
  induction path with
  | nil => simp [ends]
  | cons b bs ih =>
    rw [ends, List.mem_cons, ih]
    constructor
    · rintro (rfl | ⟨taken, rfl⟩)
      · exact ⟨[], rfl⟩
      · exact ⟨b :: taken, rfl⟩
    · rintro ⟨taken, h⟩
      cases taken with
      | nil => exact .inl h
      | cons b' taken => exact .inr ⟨taken, (List.cons.inj h).2⟩

/-- A token that takes a single byte takes the first one. -/
theorem exists_takes_single_cons_iff {P : UInt8 → Prop} {b : UInt8} {bs rest : List UInt8} :
    (∃ taken, (∃ b, P b ∧ taken = [b]) ∧ taken ++ rest = b :: bs) ↔ P b ∧ rest = bs := by
  constructor
  · rintro ⟨_, ⟨b', hb, rfl⟩, h⟩
    obtain ⟨rfl, rfl⟩ := List.cons.inj h
    exact ⟨hb, rfl⟩
  · rintro ⟨hb, rfl⟩
    exact ⟨[b], ⟨b, hb, rfl⟩, rfl⟩

/-- **What is left of a path**, and what the token has taken of it. -/
theorem Token.mem_after_iff {token : Token} {path rest : List UInt8} :
    rest ∈ token.after path ↔ ∃ taken, token.Takes taken ∧ taken ++ rest = path := by
  cases token with
  | literal c =>
    unfold Token.after Token.Takes
    dsimp only
    split
    · rename_i h
      obtain ⟨tail, rfl⟩ := List.isPrefixOf_iff_prefix.mp h
      rw [List.drop_left, List.mem_singleton]
      simp
    · rename_i h
      refine ⟨fun hmem => absurd hmem List.not_mem_nil, ?_⟩
      rintro ⟨taken, rfl, rfl⟩
      have starts : String.utf8EncodeChar c <+: String.utf8EncodeChar c ++ rest :=
        List.prefix_append _ rest
      exact absurd (List.isPrefixOf_iff_prefix.mpr starts) h
  | anyOne =>
    unfold Token.after Token.Takes
    cases path with
    | nil =>
      refine ⟨fun h => absurd h List.not_mem_nil, ?_⟩
      rintro ⟨_, ⟨b, -, rfl⟩, h⟩
      cases h
    | cons b bs =>
      rw [exists_takes_single_cons_iff]
      by_cases hb : b = slash <;> simp [hb]
  | anyRun => exact mem_afterRun_iff
  | deepStart =>
    unfold Token.after Token.Takes
    rw [List.mem_cons, mem_afterSlash_iff]
    constructor
    · rintro (rfl | ⟨run, rfl⟩)
      · exact ⟨[], .inl rfl, rfl⟩
      · exact ⟨run ++ [slash], .inr ⟨run, rfl⟩, List.append_cons _ _ _ |>.symm⟩
    · rintro ⟨taken, rfl | ⟨run, rfl⟩, rfl⟩
      · exact .inl rfl
      · exact .inr ⟨run, List.append_cons _ _ _⟩
  | deepBetween =>
    unfold Token.after Token.Takes
    constructor
    · intro h
      cases path with
      | nil => exact absurd h List.not_mem_nil
      | cons b bs =>
        dsimp only at h
        split at h
        · rename_i hb
          subst hb
          rcases List.mem_cons.mp h with rfl | h
          · exact ⟨[slash], ⟨[], .inl rfl, rfl⟩, rfl⟩
          · obtain ⟨run, rfl⟩ := mem_afterSlash_iff.mp h
            refine ⟨slash :: run ++ [slash], ⟨slash :: run, .inr ⟨run, rfl⟩, rfl⟩, ?_⟩
            exact (List.append_cons (slash :: run) slash rest).symm
        · exact absurd h List.not_mem_nil
    · rintro ⟨taken, ⟨run, rfl | ⟨bs, rfl⟩, rfl⟩, rfl⟩
      · simp
      · simp only [List.cons_append, ↓reduceIte]
        refine List.mem_cons_of_mem _ (mem_afterSlash_iff.mpr ⟨bs, ?_⟩)
        rw [List.append_assoc, List.singleton_append]
  | deepEnd =>
    unfold Token.after Token.Takes
    constructor
    · intro h
      cases path with
      | nil => exact absurd h List.not_mem_nil
      | cons b bs =>
        dsimp only at h
        split at h
        · rename_i hb
          obtain ⟨taken, rfl⟩ := mem_ends_iff.mp h
          exact ⟨b :: taken, ⟨taken, by rw [hb]⟩, rfl⟩
        · exact absurd h List.not_mem_nil
    · rintro ⟨taken, ⟨bs, rfl⟩, rfl⟩
      rw [List.cons_append]
      dsimp only
      rw [if_pos rfl]
      exact mem_ends_iff.mpr ⟨bs, rfl⟩
  | oneOf negated ranges =>
    unfold Token.after Token.Takes
    cases path with
    | nil =>
      refine ⟨fun h => absurd h List.not_mem_nil, ?_⟩
      rintro ⟨_, ⟨b, -, rfl⟩, h⟩
      cases h
    | cons b bs =>
      rw [exists_takes_single_cons_iff]
      by_cases hb : inRanges ranges b = negated <;> simp [hb]

/-! ### What a glob matches -/

/-- The tokens take the path apart, one after another. -/
def Matches : List Token → List UInt8 → Prop
  | [], path => path = []
  | token :: tokens, path =>
    ∃ taken rest, token.Takes taken ∧ Matches tokens rest ∧ taken ++ rest = path

theorem matches_nil {path : List UInt8} : Matches [] path ↔ path = [] := Iff.rfl

theorem matches_cons {token : Token} {tokens : List Token} {path : List UInt8} :
    Matches (token :: tokens) path ↔
      ∃ taken rest, token.Takes taken ∧ Matches tokens rest ∧ taken ++ rest = path := Iff.rfl

theorem matches_append {tokens more : List Token} {path : List UInt8} :
    Matches (tokens ++ more) path ↔
      ∃ front back, Matches tokens front ∧ Matches more back ∧ front ++ back = path := by
  induction tokens generalizing path with
  | nil =>
    constructor
    · exact fun h => ⟨[], path, rfl, h, rfl⟩
    · rintro ⟨_, back, rfl, h, rfl⟩
      exact h
  | cons token tokens ih =>
    rw [List.cons_append, matches_cons]
    constructor
    · rintro ⟨taken, rest, htakes, hrest, rfl⟩
      obtain ⟨front, back, hfront, hback, rfl⟩ := ih.mp hrest
      exact ⟨taken ++ front, back, ⟨taken, front, htakes, hfront, rfl⟩, hback,
        List.append_assoc _ _ _⟩
    · rintro ⟨_, back, ⟨taken, front, htakes, hfront, rfl⟩, hback, rfl⟩
      exact ⟨taken, front ++ back, htakes, ih.mpr ⟨front, back, hfront, hback, rfl⟩,
        (List.append_assoc _ _ _).symm⟩

theorem nil_mem_rests_iff {tokens : List Token} {paths : List (List UInt8)} :
    [] ∈ rests tokens paths ↔ ∃ path ∈ paths, Matches tokens path := by
  induction tokens generalizing paths with
  | nil =>
    constructor
    · exact fun h => ⟨[], h, rfl⟩
    · rintro ⟨path, h, rfl⟩
      exact h
  | cons token tokens ih =>
    rw [show rests (token :: tokens) paths =
        rests tokens (paths.flatMap fun p => token.after p).eraseDups from rfl, ih]
    constructor
    · rintro ⟨rest, hrest, hmatches⟩
      obtain ⟨path, hpath, hafter⟩ := List.mem_flatMap.mp (List.mem_eraseDups.mp hrest)
      obtain ⟨taken, htakes, rfl⟩ := Token.mem_after_iff.mp hafter
      exact ⟨_, hpath, taken, rest, htakes, hmatches, rfl⟩
    · rintro ⟨path, hpath, taken, rest, htakes, hmatches, rfl⟩
      refine ⟨rest, List.mem_eraseDups.mpr (List.mem_flatMap.mpr ⟨_, hpath, ?_⟩), hmatches⟩
      exact Token.mem_after_iff.mpr ⟨taken, htakes, rfl⟩

/-- **A glob matches a path iff its tokens take the bytes of the path apart.** -/
theorem isMatch_iff_matches {tokens : List Token} {path : List Char} :
    isMatch tokens path = true ↔ Matches tokens (Text.bytes path) := by
  rw [isMatch, List.contains_iff_mem, nil_mem_rests_iff]
  simp only [List.mem_singleton, exists_eq_left]

/-! ### Slashes -/

/-- Whether a token is a class that covers a slash. -/
def Token.coversSlash : Token → Bool
  | .oneOf negated ranges => inRanges ranges slash != negated
  | _ => false

/-- Whether a token may match several segments. -/
def Token.isDeep : Token → Bool
  | .deepStart | .deepBetween | .deepEnd => true
  | _ => false

/-- A token inside a segment: it is no slash, and does not match several segments. -/
def Token.IsInner (token : Token) : Prop := token ≠ .literal '/' ∧ token.isDeep = false

theorem Token.Takes.count_slash {token : Token} {taken : List UInt8} (h : token.Takes taken)
    (shallow : token.isDeep = false) (slashless : token.coversSlash = false) :
    taken.count slash = if token = .literal '/' then 1 else 0 := by
  cases token with
  | literal c =>
    rw [show taken = String.utf8EncodeChar c from h]
    by_cases hc : c = '/'
    · subst hc
      rw [Text.utf8EncodeChar_slash, if_pos rfl]
      rfl
    · rw [if_neg fun he => hc (Token.literal.inj he), List.count_eq_zero]
      exact fun hmem => hc (Text.slash_mem_utf8EncodeChar hmem)
  | anyOne =>
    obtain ⟨b, hb, rfl⟩ := h
    exact List.count_eq_zero.mpr fun hmem => hb (List.mem_singleton.mp hmem).symm
  | anyRun => exact List.count_eq_zero.mpr h
  | oneOf negated ranges =>
    obtain ⟨b, hb, rfl⟩ := h
    refine List.count_eq_zero.mpr fun hmem => ?_
    rw [← List.mem_singleton.mp hmem] at hb
    exact hb (bne_eq_false_iff_eq.mp slashless)
  | deepStart => cases shallow
  | deepBetween => cases shallow
  | deepEnd => cases shallow

/-- **A glob without `**` and without a class for a slash** matches only paths that have as many
slashes as the glob has. -/
theorem count_slash_of_matches {tokens : List Token} {path : List UInt8}
    (h : Matches tokens path) (shallow : ∀ token ∈ tokens, token.isDeep = false)
    (slashless : ∀ token ∈ tokens, token.coversSlash = false) :
    path.count slash = tokens.count (.literal '/') := by
  induction tokens generalizing path with
  | nil =>
    rw [matches_nil.mp h]
    rfl
  | cons token tokens ih =>
    obtain ⟨taken, rest, htakes, hrest, rfl⟩ := h
    have first := htakes.count_slash (shallow token List.mem_cons_self)
      (slashless token List.mem_cons_self)
    have others := ih hrest (fun t ht => shallow t (List.mem_cons_of_mem token ht))
      fun t ht => slashless t (List.mem_cons_of_mem token ht)
    rw [List.count_append, first, others, List.count_cons, Nat.add_comm]
    simp only [beq_iff_eq]

/-- The inside of a segment matches no slash. -/
theorem slash_notMem_of_matches {tokens : List Token} {path : List UInt8}
    (h : Matches tokens path) (inner : ∀ token ∈ tokens, token.IsInner)
    (slashless : ∀ token ∈ tokens, token.coversSlash = false) : slash ∉ path := by
  rw [← List.count_eq_zero,
    count_slash_of_matches h (fun token ht => (inner token ht).2) slashless, List.count_eq_zero]
  exact fun hmem => (inner _ hmem).1 rfl

end Glob
end RouteBook
