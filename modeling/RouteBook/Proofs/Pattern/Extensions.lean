import RouteBook.Proofs.Pattern.GlobSet
/-! # Which patterns need an extension

In a pattern without classes and escapes, all characters stand for themselves but the stars, the
question marks and the groups.  So its glob is a mere text iff it has none of those
(`forall_isLiteral_iff`).

Such a pattern, if it has something wild in it and a point at its end, has one glob, and this glob
needs an extension (`Accepted.needsExtension`): the point is the extension that it ends in.  A set
finds it only in paths whose last name is that of a file (`Accepted.isName_of_finds`).
-/
namespace RouteBook

namespace Glob

/-! ### Literal tokens -/

/-- Whether a token stands for a character. -/
def Token.isLiteral : Token → Bool
  | .literal _ => true
  | _ => false

theorem exists_text?_eq_some_iff {tokens : List Token} :
    (∃ cs, text? tokens = some cs) ↔ ∀ token ∈ tokens, token.isLiteral = true := by
  simp only [text?_eq_some_iff]
  constructor
  · rintro ⟨cs, rfl⟩ token htoken
    obtain ⟨c, -, rfl⟩ := List.mem_map.mp htoken
    rfl
  · intro literal
    induction tokens with
    | nil => exact ⟨[], rfl⟩
    | cons token tokens ih =>
      obtain ⟨first, others⟩ := List.forall_mem_cons.mp literal
      obtain ⟨cs, rfl⟩ := ih others
      cases token with
      | literal c => exact ⟨c :: cs, rfl⟩
      | _ => cases first

/-- A text without classes and escapes. -/
def IsSimple (cs : List Char) : Prop := '[' ∉ cs ∧ '\\' ∉ cs

theorem IsSimple.tail {c : Char} {cs : List Char} (h : IsSimple (c :: cs)) : IsSimple cs :=
  ⟨fun hmem => h.1 (List.mem_cons_of_mem c hmem), fun hmem => h.2 (List.mem_cons_of_mem c hmem)⟩

/-- A segment reads into literals iff it has no stars and no question marks. -/
theorem SegmentReads.forall_isLiteral_iff {cs : List Char} {tokens : List Token}
    (h : SegmentReads cs tokens) (simple : IsSimple cs) :
    (∀ token ∈ tokens, token.isLiteral = true) ↔ '*' ∉ cs ∧ '?' ∉ cs := by
  induction h with
  | nil => simp
  | star =>
    exact ⟨fun literal => absurd (literal _ List.mem_cons_self) Bool.false_ne_true,
      fun h => absurd List.mem_cons_self h.1⟩
  | question =>
    exact ⟨fun literal => absurd (literal _ List.mem_cons_self) Bool.false_ne_true,
      fun h => absurd List.mem_cons_self h.2⟩
  | bracket => exact absurd List.mem_cons_self simple.1
  | escape => exact absurd List.mem_cons_self simple.2
  | lastEscape => exact absurd List.mem_cons_self simple.2
  | @char c cs tokens hc _ ih =>
    have notStar : '*' ≠ c := fun he => hc (he ▸ by decide)
    have notQuestion : '?' ≠ c := fun he => hc (he ▸ by decide)
    have first : (Token.literal c).isLiteral = true := rfl
    rw [List.forall_mem_cons, ih simple.tail, and_iff_right first]
    simp only [List.mem_cons, notStar, notQuestion, false_or]

/-- `**` between two slashes leaves a token that is no literal, whatever comes behind it. -/
theorem PathReads.not_forall_isLiteral {lead : Token} {segments : List (List Char)}
    {tokens : List Token} (h : PathReads lead segments tokens) (ne : segments ≠ [])
    (hlead : lead = .deepBetween) : ¬ ∀ token ∈ tokens, token.isLiteral = true := by
  induction h with
  | nil => exact absurd rfl ne
  | lastDeep => exact fun literal => absurd (literal _ List.mem_cons_self) Bool.false_ne_true
  | deep more _ ih => exact ih more rfl
  | segment =>
    intro literal
    have first := literal _ List.mem_cons_self
    rw [hlead] at first
    cases first

/-- **A path reads into literals** iff no segment has a star or a question mark. -/
theorem PathReads.forall_isLiteral_iff {lead : Token} {segments : List (List Char)}
    {tokens : List Token} (h : PathReads lead segments tokens) (hlead : lead.isLiteral = true)
    (simple : ∀ s ∈ segments, IsSimple s) :
    (∀ token ∈ tokens, token.isLiteral = true) ↔ ∀ s ∈ segments, '*' ∉ s ∧ '?' ∉ s := by
  have deep : ¬ ('*' ∉ PathPattern.deep ∧ '?' ∉ PathPattern.deep) := by decide
  induction h with
  | nil => simp
  | lastDeep =>
    exact ⟨fun literal => absurd (literal _ List.mem_cons_self) Bool.false_ne_true,
      fun h => absurd (h _ List.mem_cons_self) deep⟩
  | deep more hrest =>
    exact ⟨fun literal => absurd literal (hrest.not_forall_isLiteral more rfl),
      fun h => absurd (h _ List.mem_cons_self) deep⟩
  | segment _ hread _ ih =>
    obtain ⟨here, others⟩ := List.forall_mem_cons.mp simple
    rw [List.forall_mem_append, List.forall_mem_cons, List.forall_mem_cons, and_iff_right hlead]
    exact and_congr (hread.forall_isLiteral_iff here) (ih rfl others)

/-! ### A point at the end -/

theorem SegmentReads.exists_concat_point {cs : List Char} {tokens : List Token}
    (h : SegmentReads (cs ++ ['.']) tokens) (simple : IsSimple cs) :
    ∃ front, tokens = front ++ [.literal '.'] := by
  induction cs generalizing tokens with
  | nil =>
    cases h with
    | char _ hread =>
      cases hread
      exact ⟨[], rfl⟩
  | cons c cs ih =>
    have behind : ∀ {others}, SegmentReads (cs ++ ['.']) others → ∀ token,
        ∃ front, token :: others = front ++ [.literal '.'] := by
      intro others hread token
      obtain ⟨front, rfl⟩ := ih hread simple.tail
      exact ⟨token :: front, rfl⟩
    rw [List.cons_append] at h
    generalize cs ++ ['.'] = more at h behind
    cases h with
    | star hread => exact behind hread _
    | question hread => exact behind hread _
    | char _ hread => exact behind hread _
    | bracket => exact absurd List.mem_cons_self simple.1
    | escape => exact absurd List.mem_cons_self simple.2
    | lastEscape => exact absurd List.mem_cons_self simple.2

/-- **A path with a point at its end** reads into tokens with a point at their end. -/
theorem PathReads.exists_concat_point {lead : Token} {segments : List (List Char)}
    {tokens : List Token} (h : PathReads lead segments tokens) {cs : List Char}
    (last : segments.getLast? = some (cs ++ ['.'])) (simple : IsSimple cs) :
    ∃ front, tokens = front ++ [.literal '.'] := by
  induction h with
  | nil => cases last
  | lastDeep =>
    have ends := congrArg List.getLast? (Option.some.inj last)
    rw [List.getLast?_concat] at ends
    exact absurd ends (by decide)
  | deep more _ ih =>
    obtain ⟨next, segments, rfl⟩ := List.exists_cons_of_ne_nil more
    exact ih (by rwa [List.getLast?_cons_cons] at last)
  | @segment lead here segments read tokens _ hread hrest ih =>
    cases segments with
    | nil =>
      cases hrest
      obtain rfl : here = cs ++ ['.'] := Option.some.inj last
      obtain ⟨front, rfl⟩ := hread.exists_concat_point simple
      exact ⟨lead :: front, by rw [List.append_nil]; rfl⟩
    | cons next segments =>
      obtain ⟨front, rfl⟩ := ih (by rwa [List.getLast?_cons_cons] at last)
      exact ⟨lead :: read ++ front, (List.append_assoc ..).symm⟩

end Glob

namespace PathPattern
open Glob (IsSimple)

/-! ### Texts and their globs -/

/-- The characters that are wild in a pattern, or open something wild. -/
def wild : List Char := ['*', '?', '\x7b']

/-- A text with nothing wild in it. -/
def IsTame (cs : List Char) : Prop := ∀ c ∈ wild, c ∉ cs

/-- A text is tame iff its glob has no stars and no question marks. -/
theorem Replaced.star_notMem_iff {cs glob : List Char} (h : Replaced cs glob) :
    '*' ∉ glob ∧ '?' ∉ glob ↔ IsTame cs := by
  simp only [IsTame, wild, List.forall_mem_cons, List.not_mem_nil, false_imp_iff, implies_true,
    and_true]
  induction h with
  | nil => simp
  | char hopen _ _ ih =>
    simp only [List.mem_cons, not_or]
    have := hopen.symm
    tauto
  | group => simp

/-- A text and its glob end alike, unless a group is at the end. -/
theorem Replaced.exists_concat {c : Char} (hclose : c ≠ '\x7d') {cs glob : List Char}
    (h : Replaced cs glob) (last : cs.getLast? = some c) : ∃ front, glob = front ++ [c] := by
  induction h with
  | nil => cases last
  | @char d cs glob _ _ hrest ih =>
    cases cs with
    | nil =>
      cases hrest
      obtain rfl : d = c := Option.some.inj last
      exact ⟨[], rfl⟩
    | cons e cs =>
      obtain ⟨front, rfl⟩ := ih (by rwa [List.getLast?_cons_cons] at last)
      exact ⟨d :: front, rfl⟩
  | @group name cs glob _ _ _ ih =>
    have behind : ('\x7d' :: cs).getLast? = some c := by
      rw [← last, ← List.cons_append, List.getLast?_append_of_ne_nil _ (List.cons_ne_nil _ _)]
    cases cs with
    | nil => exact absurd (Option.some.inj behind).symm hclose
    | cons e cs =>
      obtain ⟨front, rfl⟩ := ih (by rwa [List.getLast?_cons_cons] at behind)
      exact ⟨'*' :: front, rfl⟩

/-- A path is tame iff its segments are. -/
theorem isTame_flatMap_iff {segments : List (List Char)} :
    IsTame (segments.flatMap ('/' :: ·)) ↔ ∀ s ∈ segments, IsTame s := by
  have notWild : '/' ∉ wild := by decide
  constructor
  · intro tame s hs c hc hmem
    exact tame c hc (List.mem_flatMap.mpr ⟨s, hs, List.mem_cons_of_mem '/' hmem⟩)
  · intro tame c hc hmem
    obtain ⟨s, hs, hmem⟩ := List.mem_flatMap.mp hmem
    exact tame s hs c hc ((List.mem_cons.mp hmem).resolve_left fun he => notWild (he ▸ hc))

/-! ### Accepted patterns -/

section
variable {segments : List (List Char)} {globs : List (List Glob.Token)}
  (slashless : ∀ s ∈ segments, '/' ∉ s) (simple : ∀ s ∈ segments, IsSimple (globOf s))
include slashless simple

/-- The path of simple globs is read segment by segment. -/
theorem pathReads_of_isSimple (ne : segments ≠ []) {tokens : List Glob.Token}
    (hparse : Glob.parse (path (segments.map globOf)) = .ok tokens) :
    Glob.PathReads (.literal '/') (segments.map globOf) tokens := by
  refine Glob.pathReads_of_parse hparse (fun hnil => ne (List.map_eq_nil_iff.mp hnil)) ?_ ?_
  · intro glob hglob hmem
    obtain ⟨s, hs, rfl⟩ := List.mem_map.mp hglob
    rcases mem_of_mem_globOf hmem with he | ⟨hmem, -⟩
    · cases he
    · exact slashless s hs hmem
  · intro glob hglob
    obtain ⟨s, hs, rfl⟩ := List.mem_map.mp hglob
    exact Glob.closesClasses_of_notMem (simple s hs).1 (simple s hs).2

/-- **The glob of a pattern is a text** iff all of its segments are tame. -/
theorem Accepted.forall_isLiteral_iff (h : Accepted segments globs) (ne : segments ≠ [])
    {tokens : List Glob.Token} (hparse : Glob.parse (path (segments.map globOf)) = .ok tokens) :
    (∀ token ∈ tokens, token.isLiteral = true) ↔ ∀ s ∈ segments, IsTame s := by
  have reads := pathReads_of_isSimple slashless simple ne hparse
  refine (reads.forall_isLiteral_iff rfl (List.forall_mem_map.mpr simple)).trans ?_
  rw [List.forall_mem_map]
  exact forall₂_congr fun s hs =>
    (replaced_of_segmentGlob (h.segmentGlob_eq s hs)).star_notMem_iff

/-- The glob of a tame pattern needs no extension, as it is a text. -/
theorem Accepted.not_needsExtension (h : Accepted segments globs) (ne : segments ≠ [])
    (tame : ∀ s ∈ segments, IsTame s) : ∀ tokens ∈ globs, ¬ Glob.NeedsExtension tokens := by
  rcases h.globs_cases with ⟨tokens, rfl, -, hparse⟩ | ⟨-, -, -, hdeep, -, -⟩
  · rw [List.forall_mem_singleton]
    intro needs
    obtain ⟨cs, htext⟩ := Glob.exists_text?_eq_some_iff.mpr
      ((h.forall_isLiteral_iff slashless simple ne hparse).mpr tame)
    rw [needs.1] at htext
    cases htext
  · obtain ⟨s, hs, hglob⟩ := List.mem_map.mp (List.mem_of_getLast? hdeep)
    have starless := (replaced_of_segmentGlob (h.segmentGlob_eq s hs)).star_notMem_iff.mpr (tame s hs)
    rw [hglob] at starless
    exact absurd List.mem_cons_self starless.1

/-- **A wild pattern with a point at its end** has one glob, and this glob needs an extension. -/
theorem Accepted.needsExtension (h : Accepted segments globs) {last : List Char}
    (hlast : segments.getLast? = some last) (point : last.getLast? = some '.')
    (hwild : ¬ ∀ s ∈ segments, IsTame s) :
    ∃ tokens, globs = [tokens] ∧ Glob.NeedsExtension tokens := by
  have mem : last ∈ segments := List.mem_of_getLast? hlast
  have ne : segments ≠ [] := List.ne_nil_of_mem mem
  obtain ⟨cs, hcs⟩ :=
    (replaced_of_segmentGlob (h.segmentGlob_eq last mem)).exists_concat (by decide) point
  have lastGlob : (segments.map globOf).getLast? = some (cs ++ ['.']) := by
    rw [List.getLast?_map, hlast, Option.map_some, hcs]
  rcases h.globs_cases with ⟨tokens, rfl, -, hparse⟩ | ⟨-, -, -, hdeep, -, -⟩
  · have reads := pathReads_of_isSimple slashless simple ne hparse
    have inside : IsSimple cs := by
      have whole := simple last mem
      rw [hcs] at whole
      exact ⟨fun hmem => whole.1 (List.mem_append_left _ hmem),
        fun hmem => whole.2 (List.mem_append_left _ hmem)⟩
    obtain ⟨front, rfl⟩ := reads.exists_concat_point lastGlob inside
    refine ⟨_, rfl, ?_, ?_, ?_⟩
    · rw [Option.eq_none_iff_forall_ne_some]
      intro text htext
      have literal := Glob.exists_text?_eq_some_iff.mp ⟨text, htext⟩
      exact hwild ((h.forall_isLiteral_iff slashless simple ne hparse).mp literal)
    · rw [Glob.front?, List.getLast?_concat, if_neg (by decide)]
    · rw [Glob.extension?_concat_point]
      rfl
  · rw [lastGlob] at hdeep
    have ends := congrArg List.getLast? (Option.some.inj hdeep)
    rw [List.getLast?_concat] at ends
    exact absurd ends (by decide)

/-- Such a pattern is found only in paths whose last name is that of a file. -/
theorem Accepted.isName_of_finds (h : Accepted segments globs) {last : List Char}
    (hlast : segments.getLast? = some last) (point : last.getLast? = some '.')
    (hwild : ¬ ∀ s ∈ segments, IsTame s) {isName : List UInt8 → Bool} {path : List Char}
    (found : Glob.finds isName globs path = true) :
    isName (Glob.lastName (Text.bytes path)) = true := by
  obtain ⟨tokens, rfl, needs⟩ := h.needsExtension slashless simple hlast point hwild
  rw [Glob.finds, List.any_cons, List.any_nil, Bool.or_false, Glob.finds_searchOf_iff] at found
  exact found.2 needs

end

end PathPattern
end RouteBook
