import RouteBook.Proofs.Pattern.Accepted
import Mathlib.Data.List.Chain
/-! # What a pattern means

The meaning of a pattern is said segment by segment (`Aligned`): `**` covers any number of segments
of the route, and any other segment of the pattern covers one, character by character
(`SegmentCovers`).

A group covers what a star covers, so it makes no difference whether the segments are taken as they
are written or with stars in place of groups (`aligned_map_globOf_iff`).  Only a segment of groups
and stars that becomes `**` changes its meaning.
-/
namespace RouteBook

namespace PathPattern

/-! ### What a pattern means -/

/-- A segment of a pattern covers a segment of a route: a star and a group cover any run of
characters, a question mark covers one, and any other character covers itself. -/
inductive SegmentCovers : List Char → List Char → Prop where
  | nil : SegmentCovers [] []
  | star {p s} (run) : SegmentCovers p s → SegmentCovers ('*' :: p) (run ++ s)
  | group {name p s} (run) : '\x7b' ∉ name → '\x7d' ∉ name → SegmentCovers p s →
      SegmentCovers ('\x7b' :: (name ++ '\x7d' :: p)) (run ++ s)
  | one {p s} (c) : SegmentCovers p s → SegmentCovers ('?' :: p) (c :: s)
  | char {c p s} : c ∉ ['*', '?', '\x7b', '\x7d'] → SegmentCovers p s →
      SegmentCovers (c :: p) (c :: s)

/-- The segments of a pattern aligned with those of a route. -/
inductive Aligned : List (List Char) → List (List Char) → Prop where
  | nil : Aligned [] []
  | deep {ps us} (skipped) : Aligned ps us → Aligned (deep :: ps) (skipped ++ us)
  | segment {p ps u us} : p ≠ deep → SegmentCovers p u → Aligned ps us →
      Aligned (p :: ps) (u :: us)

/-- Segments of which no two in a row are `**`. -/
def DeepApart (segments : List (List Char)) : Prop :=
  segments.IsChain fun s next => s = deep → next ≠ deep

/-! ### Characters and segments -/

/-- What a single character of a pattern covers. -/
def CharCovers (c : Char) (run : List Char) : Prop :=
  if c = '*' then True else if c = '?' then ∃ d, run = [d] else run = [c]

theorem segmentCovers_nil_iff {u : List Char} : SegmentCovers [] u ↔ u = [] := by
  constructor
  · intro h
    cases h
    rfl
  · rintro rfl
    exact .nil

/-- A segment of a pattern covers character by character outside of groups. -/
theorem segmentCovers_cons_iff {c : Char} (hopen : c ≠ '\x7b') (hclose : c ≠ '\x7d')
    {p u : List Char} :
    SegmentCovers (c :: p) u ↔ ∃ run s, CharCovers c run ∧ SegmentCovers p s ∧ run ++ s = u := by
  constructor
  · intro h
    generalize hp : c :: p = pattern at h
    cases h with
    | nil => cases hp
    | star run h =>
      obtain ⟨rfl, rfl⟩ := List.cons.inj hp
      exact ⟨run, _, trivial, h, rfl⟩
    | group run _ _ h => exact absurd (List.cons.inj hp).1 hopen
    | one d h =>
      obtain ⟨rfl, rfl⟩ := List.cons.inj hp
      exact ⟨[d], _, ⟨d, rfl⟩, h, rfl⟩
    | char hc h =>
      obtain ⟨rfl, rfl⟩ := List.cons.inj hp
      simp only [List.mem_cons, List.not_mem_nil, or_false, not_or] at hc
      refine ⟨[c], _, ?_, h, rfl⟩
      rw [CharCovers, if_neg hc.1, if_neg hc.2.1]
  · rintro ⟨run, s, hrun, h, rfl⟩
    unfold CharCovers at hrun
    split at hrun
    · rename_i hc
      subst hc
      exact .star run h
    · rename_i hstar
      split at hrun
      · rename_i hc
        obtain ⟨d, rfl⟩ := hrun
        subst hc
        exact .one d h
      · rename_i hquestion
        subst hrun
        refine .char ?_ h
        simp only [List.mem_cons, List.not_mem_nil, or_false, not_or]
        exact ⟨hstar, hquestion, hopen, hclose⟩

theorem aligned_nil_iff {us : List (List Char)} : Aligned [] us ↔ us = [] := by
  constructor
  · intro h
    cases h
    rfl
  · rintro rfl
    exact .nil

theorem aligned_deep_iff {ps us : List (List Char)} :
    Aligned (deep :: ps) us ↔ ∃ skipped rest, Aligned ps rest ∧ skipped ++ rest = us := by
  constructor
  · intro h
    cases h with
    | deep skipped h => exact ⟨skipped, _, h, rfl⟩
    | segment hne => exact absurd rfl hne
  · rintro ⟨skipped, rest, h, rfl⟩
    exact .deep skipped h

theorem aligned_segment_iff {p : List Char} (hne : p ≠ deep) {ps us : List (List Char)} :
    Aligned (p :: ps) us ↔ ∃ u rest, SegmentCovers p u ∧ Aligned ps rest ∧ u :: rest = us := by
  constructor
  · intro h
    cases h with
    | deep => exact absurd rfl hne
    | segment _ hcovers h => exact ⟨_, _, hcovers, h, rfl⟩
  · rintro ⟨u, rest, hcovers, h, rfl⟩
    exact .segment hne hcovers h

/-- `**` at the end covers whatever the rest of the pattern leaves. -/
theorem aligned_append_deep_iff {ps us : List (List Char)} :
    Aligned (ps ++ [deep]) us ↔ ∃ front back, Aligned ps front ∧ front ++ back = us := by
  induction ps generalizing us with
  | nil =>
    rw [List.nil_append, aligned_deep_iff]
    constructor
    · rintro ⟨skipped, rest, h, rfl⟩
      obtain rfl := aligned_nil_iff.mp h
      exact ⟨[], skipped, .nil, (List.append_nil skipped).symm⟩
    · rintro ⟨front, back, h, rfl⟩
      obtain rfl := aligned_nil_iff.mp h
      exact ⟨back, [], .nil, List.append_nil back⟩
  | cons p ps ih =>
    rw [List.cons_append]
    by_cases hp : p = deep
    · subst hp
      rw [aligned_deep_iff]
      constructor
      · rintro ⟨skipped, rest, h, rfl⟩
        obtain ⟨front, back, hfront, rfl⟩ := ih.mp h
        exact ⟨skipped ++ front, back, .deep skipped hfront, List.append_assoc _ _ _⟩
      · rintro ⟨front, back, h, rfl⟩
        obtain ⟨skipped, rest, hrest, rfl⟩ := aligned_deep_iff.mp h
        exact ⟨skipped, rest ++ back, ih.mpr ⟨rest, back, hrest, rfl⟩,
          (List.append_assoc _ _ _).symm⟩
    · rw [aligned_segment_iff hp]
      constructor
      · rintro ⟨u, rest, hcovers, h, rfl⟩
        obtain ⟨front, back, hfront, rfl⟩ := ih.mp h
        exact ⟨u :: front, back, .segment hp hcovers hfront, rfl⟩
      · rintro ⟨front, back, h, rfl⟩
        obtain ⟨u, rest, hcovers, hrest, rfl⟩ := (aligned_segment_iff hp).mp h
        exact ⟨u, rest ++ back, hcovers, ih.mpr ⟨rest, back, hrest, rfl⟩, rfl⟩

/-! ### Groups -/

/-- A group covers any run of characters. -/
theorem segmentCovers_group_iff {name : List Char} (hopen : '\x7b' ∉ name) (hclose : '\x7d' ∉ name)
    {p u : List Char} :
    SegmentCovers ('\x7b' :: (name ++ '\x7d' :: p)) u ↔
      ∃ run s, SegmentCovers p s ∧ run ++ s = u := by
  constructor
  · intro h
    generalize hpattern : '\x7b' :: (name ++ '\x7d' :: p) = pattern at h
    cases h with
    | group run _ hclose' h =>
      -- both names end at the first brace that closes
      obtain ⟨-, rfl⟩ :=
        Text.append_cons_inj_of_notMem (List.cons.inj hpattern).2 hclose hclose'
      exact ⟨run, _, h, rfl⟩
    | char hc _ =>
      rw [← (List.cons.inj hpattern).1] at hc
      exact absurd (by decide) hc
    | nil => cases hpattern
    | star => cases hpattern
    | one => cases hpattern
  · rintro ⟨run, s, h, rfl⟩
    exact .group run hopen hclose h

/-- **A text covers what its glob covers.** -/
theorem Replaced.segmentCovers_iff {segment glob u : List Char} (h : Replaced segment glob) :
    SegmentCovers glob u ↔ SegmentCovers segment u := by
  induction h generalizing u with
  | nil => exact Iff.rfl
  | char hopen hclose _ ih =>
    rw [segmentCovers_cons_iff hopen hclose, segmentCovers_cons_iff hopen hclose]
    simp only [ih]
  | group hopen hclose _ ih =>
    rw [segmentCovers_cons_iff (by decide) (by decide), segmentCovers_group_iff hopen hclose]
    simp only [ih, CharCovers, if_true, true_and]

theorem segmentCovers_globOf_iff {segment u : List Char}
    (h : segmentGlob segment = .ok (globOf segment)) :
    SegmentCovers (globOf segment) u ↔ SegmentCovers segment u :=
  (replaced_of_segmentGlob h).segmentCovers_iff

/-- So a pattern may be aligned by the globs of its segments, unless another of them becomes `**`. -/
theorem aligned_map_globOf_iff {ps us : List (List Char)}
    (h : ∀ p ∈ ps, segmentGlob p = .ok (globOf p)) (hdeep : ∀ p ∈ ps, p ≠ deep → globOf p ≠ deep) :
    Aligned (ps.map globOf) us ↔ Aligned ps us := by
  induction ps generalizing us with
  | nil => exact Iff.rfl
  | cons p ps ih =>
    obtain ⟨hp, hps⟩ := List.forall_mem_cons.mp h
    obtain ⟨hpdeep, hpsdeep⟩ := List.forall_mem_cons.mp hdeep
    have rest : ∀ {us}, Aligned (ps.map globOf) us ↔ Aligned ps us := ih hps hpsdeep
    rw [List.map_cons]
    by_cases hne : p = deep
    · subst hne
      rw [globOf_eq segmentGlob_deep, aligned_deep_iff, aligned_deep_iff]
      simp only [rest]
    · rw [aligned_segment_iff (hpdeep hne), aligned_segment_iff hne]
      simp only [rest, segmentCovers_globOf_iff hp]

/-- Nor does it make a difference to which of them are next to each other. -/
theorem DeepApart.map_globOf {ps : List (List Char)} (h : DeepApart ps)
    (hdeep : ∀ p ∈ ps, p ≠ deep → globOf p ≠ deep) : DeepApart (ps.map globOf) := by
  have written : ∀ p ∈ ps, globOf p = deep → p = deep := fun p hp hglob =>
    Classical.byContradiction fun hne => hdeep p hp hne hglob
  refine (List.isChain_map globOf).mpr (List.IsChain.imp_of_mem_imp ?_ h)
  intro s next hs hnext hapart hglob hglob'
  exact hapart (written s hs hglob) (written next hnext hglob')

end PathPattern
end RouteBook
