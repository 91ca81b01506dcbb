import RouteBook.Proofs.Pattern.Meaning
/-! # Patterns cover the routes that they are aligned with

What a pattern means is said segment by segment, but what is matched is the text of the route, and
against two globs if the pattern ends with `**`.  Both come to the same (`covers_iff_aligned`),
because

* a character of an ASCII route is a byte, so the tokens of a segment match what the segment covers
  (`SegmentReads.matches_iff`);
* they match no slash, and what follows them starts with one, so they match a whole segment of the
  route (`matches_segment_iff`);
* `**` between two slashes ends at a slash of the route, and any slash of the route is the end of a
  segment (`matches_deepBetween_iff`);
* `**` at the end needs a slash, and so at least one segment; the second glob is for none
  (`matches_deepEnd_iff`).
-/
namespace RouteBook

open Uri (flatBytes flatBytes_cons)

namespace Glob

/-! ### Characters of a segment -/

/-- A glob of a segment without classes, escapes and groups. -/
def IsPlain (glob : List Char) : Prop := ∀ c ∈ glob, c ∉ ['/', '[', '\\', '\x7b', '\x7d']

theorem isPlain_deep : IsPlain PathPattern.deep := by
  intro c hc
  obtain rfl : c = '*' := by simpa [PathPattern.deep] using hc
  decide

theorem IsPlain.tail {c : Char} {glob : List Char} (h : IsPlain (c :: glob)) : IsPlain glob :=
  fun d hd => h d (List.mem_cons_of_mem c hd)

theorem IsPlain.slash_notMem {glob : List Char} (h : IsPlain glob) : '/' ∉ glob :=
  fun hmem => h _ hmem (by decide)

theorem IsPlain.closesClasses {glob : List Char} (h : IsPlain glob) : ClosesClasses glob :=
  closesClasses_of_notMem (fun hmem => h _ hmem (by decide)) fun hmem => h _ hmem (by decide)

/-- A plain glob has no class that could cover a slash. -/
theorem SegmentReads.coversSlash_eq_false {glob : List Char} {tokens : List Token}
    (h : SegmentReads glob tokens) (plain : IsPlain glob) :
    ∀ token ∈ tokens, token.coversSlash = false := by
  induction h with
  | nil => exact fun _ ht => absurd ht List.not_mem_nil
  | star _ ih | question _ ih | char _ _ ih =>
    exact List.forall_mem_cons.mpr ⟨rfl, ih plain.tail⟩
  | bracket | escape | lastEscape => exact absurd (plain _ List.mem_cons_self) (by decide)

/-- A segment of a route, all of whose characters are a byte each. -/
def IsAscii (u : List Char) : Prop := ∀ c ∈ u, c.toNat < 128 ∧ c ≠ '/'

theorem IsAscii.bytes_eq_map {u : List Char} (h : IsAscii u) : Text.bytes u = u.map Text.byte :=
  Text.bytes_eq_map fun c hc => (h c hc).1

theorem IsAscii.slash_notMem_bytes {u : List Char} (h : IsAscii u) : slash ∉ Text.bytes u :=
  Text.slash_notMem_bytes fun hmem => (h _ hmem).2 rfl

/-- Tokens take a segment apart between two of its characters. -/
theorem matches_cons_bytes_iff {token : Token} {tokens : List Token} {u : List Char}
    (h : IsAscii u) :
    Matches (token :: tokens) (Text.bytes u) ↔ ∃ run s, token.Takes (Text.bytes run) ∧
      Matches tokens (Text.bytes s) ∧ run ++ s = u := by
  rw [matches_cons]
  constructor
  · rintro ⟨taken, rest, htaken, hrest, heq⟩
    rw [h.bytes_eq_map] at heq
    obtain ⟨run, s, rfl, rfl, rfl⟩ := List.map_eq_append_iff.mp heq.symm
    refine ⟨run, s, ?_, ?_, rfl⟩
    · rwa [IsAscii.bytes_eq_map fun c hc => h c (List.mem_append_left s hc)]
    · rwa [IsAscii.bytes_eq_map fun c hc => h c (List.mem_append_right run hc)]
  · rintro ⟨run, s, hrun, hs, rfl⟩
    exact ⟨_, _, hrun, hs, (Text.bytes_append run s).symm⟩

section Characters
open PathPattern (CharCovers SegmentCovers segmentCovers_cons_iff segmentCovers_nil_iff)
variable {run : List Char}

theorem takes_anyRun_iff (h : IsAscii run) :
    Token.anyRun.Takes (Text.bytes run) ↔ CharCovers '*' run :=
  ⟨fun _ => trivial, fun _ => h.slash_notMem_bytes⟩

theorem takes_anyOne_iff (h : IsAscii run) :
    Token.anyOne.Takes (Text.bytes run) ↔ CharCovers '?' run := by
  rw [h.bytes_eq_map]
  constructor
  · rintro ⟨b, -, hb⟩
    obtain ⟨c, rfl, -⟩ := List.map_eq_singleton_iff.mp hb
    exact ⟨c, rfl⟩
  · rintro ⟨c, rfl⟩
    refine ⟨Text.byte c, fun hb => ?_, rfl⟩
    obtain ⟨hascii, hslash⟩ := h c List.mem_cons_self
    exact hslash (Text.byte_injective hascii (by decide) hb)

theorem takes_literal_iff {c : Char} (hc : c ∉ special) (h : IsAscii run) :
    (Token.literal c).Takes (Text.bytes run) ↔ CharCovers c run := by
  have hstar : c ≠ '*' := fun he => hc (he ▸ by decide)
  have hquestion : c ≠ '?' := fun he => hc (he ▸ by decide)
  rw [CharCovers, if_neg hstar, if_neg hquestion, h.bytes_eq_map]
  constructor
  · intro htakes
    have hrun : run.map Text.byte = String.utf8EncodeChar c := htakes
    by_cases hascii : c.toNat < 128
    · rw [Text.utf8EncodeChar_of_lt hascii] at hrun
      obtain ⟨d, rfl, hd⟩ := List.map_eq_singleton_iff.mp hrun
      rw [Text.byte_injective (h d List.mem_cons_self).1 hascii hd]
    · -- its bytes are no bytes of the run
      obtain ⟨b, bs, hbytes⟩ := List.exists_cons_of_ne_nil (@String.utf8EncodeChar_ne_nil c)
      have high : 128 ≤ b.toNat :=
        Text.le_of_mem_utf8EncodeChar (Nat.le_of_not_lt hascii) (hbytes ▸ List.mem_cons_self)
      have hb : b ∈ run.map Text.byte := by
        rw [hrun, hbytes]
        exact List.mem_cons_self
      obtain ⟨d, hd, rfl⟩ := List.mem_map.mp hb
      rw [Text.toNat_byte (h d hd).1] at high
      exact absurd (h d hd).1 (Nat.not_lt_of_le high)
  · rintro rfl
    rw [show [c].map Text.byte = [Text.byte c] from rfl,
      ← Text.utf8EncodeChar_of_lt (h c List.mem_cons_self).1]
    rfl

/-- One more character of a glob, and one more token. -/
theorem matches_cons_iff_segmentCovers {c : Char} {glob u : List Char} {token : Token}
    {tokens : List Token} (plain : IsPlain (c :: glob)) (hu : IsAscii u)
    (htoken : ∀ {run}, IsAscii run → (token.Takes (Text.bytes run) ↔ CharCovers c run))
    (htokens : ∀ {s}, IsAscii s → (Matches tokens (Text.bytes s) ↔ SegmentCovers glob s)) :
    Matches (token :: tokens) (Text.bytes u) ↔ SegmentCovers (c :: glob) u := by
  have hc := plain c List.mem_cons_self
  have hopen : c ≠ '\x7b' := fun he => hc (by rw [he]; decide)
  have hclose : c ≠ '\x7d' := fun he => hc (by rw [he]; decide)
  rw [matches_cons_bytes_iff hu, segmentCovers_cons_iff hopen hclose]
  have ascii : ∀ {run s}, run ++ s = u → IsAscii run ∧ IsAscii s := by
    rintro run s rfl
    exact ⟨fun c hc => hu c (List.mem_append_left s hc),
      fun c hc => hu c (List.mem_append_right run hc)⟩
  constructor
  · rintro ⟨run, s, hrun, hs, heq⟩
    exact ⟨run, s, (htoken (ascii heq).1).mp hrun, (htokens (ascii heq).2).mp hs, heq⟩
  · rintro ⟨run, s, hrun, hs, heq⟩
    exact ⟨run, s, (htoken (ascii heq).1).mpr hrun, (htokens (ascii heq).2).mpr hs, heq⟩

/-- **The tokens of a segment match what the segment covers.** -/
theorem SegmentReads.matches_iff {glob u : List Char} {tokens : List Token}
    (h : SegmentReads glob tokens) (plain : IsPlain glob) (hu : IsAscii u) :
    Matches tokens (Text.bytes u) ↔ SegmentCovers glob u := by
  induction h generalizing u with
  | nil =>
    rw [matches_nil, segmentCovers_nil_iff]
    constructor
    · exact fun hnil => Classical.byContradiction fun hne => Text.bytes_ne_nil hne hnil
    · rintro rfl
      rfl
  | star _ ih => exact matches_cons_iff_segmentCovers plain hu takes_anyRun_iff (ih plain.tail)
  | question _ ih => exact matches_cons_iff_segmentCovers plain hu takes_anyOne_iff (ih plain.tail)
  | char hc _ ih =>
    exact matches_cons_iff_segmentCovers plain hu (takes_literal_iff hc) (ih plain.tail)
  | bracket | escape | lastEscape => exact absurd (plain _ List.mem_cons_self) (by decide)

end Characters

/-! ### Slashes of a route -/

/-- **Every slash of a route is the end of a segment.** -/
theorem exists_of_append_slash {us : List (List UInt8)} (h : ∀ u ∈ us, slash ∉ u)
    {front back : List UInt8} (hus : front ++ slash :: back = flatBytes us) :
    ∃ skipped u rest, us = skipped ++ u :: rest ∧ front = flatBytes skipped ∧
      back = u ++ flatBytes rest := by
  induction us generalizing front with
  | nil => exact absurd (List.append_eq_nil_iff.mp hus).2 (List.cons_ne_nil _ _)
  | cons u us ih =>
    obtain ⟨hu, hothers⟩ := List.forall_mem_cons.mp h
    rw [flatBytes_cons] at hus
    cases front with
    | nil => exact ⟨[], u, us, rfl, rfl, (List.cons.inj hus).2⟩
    | cons b front =>
      obtain ⟨rfl, hfront⟩ := List.cons.inj hus
      -- the slash is not in `u`, so `u` is behind the first one
      obtain ⟨behind, rfl, hbehind⟩ : ∃ behind, front = u ++ behind ∧
          behind ++ slash :: back = flatBytes us := by
        rcases List.append_eq_append_iff.mp hfront with ⟨more, rfl, hmore⟩ | ⟨more, rfl, hmore⟩
        · cases more with
          | nil => exact ⟨[], by simp, hmore⟩
          | cons b more =>
            obtain ⟨rfl, -⟩ := List.cons.inj hmore
            exact absurd (List.mem_append_right front List.mem_cons_self) hu
        · exact ⟨more, rfl, hmore.symm⟩
      obtain ⟨skipped, v, rest, rfl, rfl, rfl⟩ := ih hothers hbehind
      exact ⟨u :: skipped, v, rest, rfl, (flatBytes_cons u skipped).symm, rfl⟩

/-- Nothing, or a text that starts with a slash. -/
def StartsSlash (path : List UInt8) : Prop := path = [] ∨ ∃ rest, path = slash :: rest

theorem startsSlash_flatBytes (us : List (List UInt8)) : StartsSlash (flatBytes us) := by
  cases us with
  | nil => exact .inl rfl
  | cons u us => exact .inr ⟨u ++ flatBytes us, rfl⟩

/-- Texts without slashes end at the same slash. -/
theorem append_inj_of_startsSlash {a b u v : List UInt8} (h : a ++ b = u ++ v) (ha : slash ∉ a)
    (hu : slash ∉ u) (hb : StartsSlash b) (hv : StartsSlash v) : a = u ∧ b = v := by
  induction a generalizing u with
  | nil =>
    cases u with
    | nil => exact ⟨rfl, h⟩
    | cons c u =>
      rw [List.nil_append] at h
      subst h
      obtain hb | ⟨rest, hb⟩ := hb
      · cases hb
      · exact absurd (List.cons.inj hb).1 fun he => hu (he ▸ List.mem_cons_self)
  | cons c a ih =>
    cases u with
    | nil =>
      rw [List.nil_append] at h
      subst h
      obtain hv | ⟨rest, hv⟩ := hv
      · cases hv
      · exact absurd (List.cons.inj hv).1 fun he => ha (he ▸ List.mem_cons_self)
    | cons d u =>
      obtain ⟨rfl, htail⟩ := List.cons.inj h
      obtain ⟨rfl, rfl⟩ := ih htail (fun hmem => ha (List.mem_cons_of_mem c hmem))
        fun hmem => hu (List.mem_cons_of_mem c hmem)
      exact ⟨rfl, rfl⟩

/-! ### Tokens on a route -/

theorem matches_slash_iff {tokens : List Token} {path : List UInt8} :
    Matches (.literal '/' :: tokens) path ↔ ∃ rest, Matches tokens rest ∧ slash :: rest = path := by
  rw [matches_cons]
  constructor
  · rintro ⟨taken, rest, rfl, h, rfl⟩
    exact ⟨rest, h, rfl⟩
  · rintro ⟨rest, h, rfl⟩
    exact ⟨[slash], rest, Text.utf8EncodeChar_slash.symm, h, rfl⟩

section Route
variable {us : List (List UInt8)} {tokens : List Token}

/-- **The inside of a segment matches a segment of the route.** -/
theorem matches_segment_iff (h : ∀ u ∈ us, slash ∉ u) {inner : List Token}
    (hinner : ∀ path, Matches inner path → slash ∉ path)
    (hstarts : ∀ path, Matches tokens path → StartsSlash path) :
    Matches (.literal '/' :: inner ++ tokens) (flatBytes us) ↔
      ∃ u rest, Matches inner u ∧ Matches tokens (flatBytes rest) ∧ u :: rest = us := by
  rw [List.cons_append, matches_slash_iff]
  constructor
  · rintro ⟨path, hpath, hus⟩
    obtain ⟨a, b, ha, hb, rfl⟩ := matches_append.mp hpath
    cases us with
    | nil => cases hus
    | cons u us =>
      rw [flatBytes_cons] at hus
      obtain ⟨rfl, rfl⟩ := append_inj_of_startsSlash (List.cons.inj hus).2 (hinner a ha)
        (h u List.mem_cons_self) (hstarts b hb) (startsSlash_flatBytes us)
      exact ⟨a, us, ha, hb, rfl⟩
  · rintro ⟨u, rest, hu, hrest, rfl⟩
    exact ⟨u ++ flatBytes rest, matches_append.mpr ⟨u, flatBytes rest, hu, hrest, rfl⟩,
      (flatBytes_cons u rest).symm⟩

/-- **`**` between two slashes skips segments of the route**, and goes on like a slash. -/
theorem matches_deepBetween_iff (h : ∀ u ∈ us, slash ∉ u) :
    Matches (.deepBetween :: tokens) (flatBytes us) ↔
      ∃ skipped rest, Matches (.literal '/' :: tokens) (flatBytes rest) ∧
        skipped ++ rest = us := by
  rw [matches_cons]
  constructor
  · rintro ⟨_, back, ⟨run, -, rfl⟩, hback, hus⟩
    rw [List.append_assoc, List.singleton_append] at hus
    obtain ⟨skipped, u, rest, rfl, -, rfl⟩ := exists_of_append_slash h hus
    exact ⟨skipped, u :: rest, matches_slash_iff.mpr ⟨_, hback, (flatBytes_cons u rest).symm⟩, rfl⟩
  · rintro ⟨skipped, rest, hrest, rfl⟩
    obtain ⟨back, hback, heq⟩ := matches_slash_iff.mp hrest
    refine ⟨flatBytes skipped ++ [slash], back,
      ⟨flatBytes skipped, startsSlash_flatBytes skipped, rfl⟩, hback, ?_⟩
    rw [List.append_assoc, List.singleton_append, heq, flatBytes, flatBytes, flatBytes,
      List.flatMap_append]

/-- **`**` at the end covers one segment of the route or more.** -/
theorem matches_deepEnd_iff (h : ∀ u ∈ us, slash ∉ u) :
    Matches (tokens ++ [.deepEnd]) (flatBytes us) ↔
      ∃ front back, back ≠ [] ∧ Matches tokens (flatBytes front) ∧ front ++ back = us := by
  rw [matches_append]
  constructor
  · rintro ⟨a, _, ha, ⟨_, _, ⟨bs, rfl⟩, rfl, rfl⟩, hus⟩
    rw [List.append_nil] at hus
    obtain ⟨front, u, rest, rfl, rfl, -⟩ := exists_of_append_slash h hus
    exact ⟨front, u :: rest, List.cons_ne_nil u rest, ha, rfl⟩
  · rintro ⟨front, back, hne, hfront, rfl⟩
    obtain ⟨u, rest, rfl⟩ := List.exists_cons_of_ne_nil hne
    refine ⟨flatBytes front, flatBytes (u :: rest), hfront,
      ⟨flatBytes (u :: rest), [], ⟨_, flatBytes_cons u rest⟩, rfl, List.append_nil _⟩, ?_⟩
    rw [flatBytes, flatBytes, flatBytes, List.flatMap_append]

end Route

/-! ### Tokens of a path -/

/-- A segment after a slash, or after `**`, reads in the same way. -/
theorem PathReads.lead {lead : Token} {cs : List Char} {segments : List (List Char)}
    {tokens : List Token} (h : PathReads lead (cs :: segments) tokens)
    (hne : cs ≠ PathPattern.deep) :
    ∃ rest, tokens = lead :: rest ∧ PathReads (.literal '/') (cs :: segments)
      (.literal '/' :: rest) := by
  cases h with
  | lastDeep => exact absurd rfl hne
  | deep => exact absurd rfl hne
  | segment _ hread hrest => exact ⟨_, rfl, .segment hne hread hrest⟩

/-- What the tokens of a path match starts with a slash, if it is not empty. -/
theorem PathReads.startsSlash {lead : Token} {segments : List (List Char)} {tokens : List Token}
    (h : PathReads lead segments tokens)
    (hlead : ∀ taken, lead.Takes taken → ∃ rest, taken = slash :: rest) {path : List UInt8}
    (hmatches : Matches tokens path) : StartsSlash path := by
  induction h with
  | nil => exact .inl hmatches
  | lastDeep =>
    obtain ⟨_, rest, ⟨bs, rfl⟩, -, rfl⟩ := hmatches
    exact .inr ⟨bs ++ rest, rfl⟩
  | deep _ _ ih =>
    refine ih (fun taken htaken => ?_) hmatches
    obtain ⟨run, rfl | ⟨bs, rfl⟩, rfl⟩ := htaken
    · exact ⟨[], rfl⟩
    · exact ⟨bs ++ [slash], rfl⟩
  | segment =>
    obtain ⟨taken, rest, htaken, -, rfl⟩ := hmatches
    obtain ⟨bs, rfl⟩ := hlead taken htaken
    exact .inr ⟨bs ++ rest, rfl⟩

/-- `**` at the end adds a token at the end. -/
theorem PathReads.append_deep {lead : Token} {segments : List (List Char)} {tokens : List Token}
    (h : PathReads lead (segments ++ [PathPattern.deep]) tokens)
    (hlast : segments.getLast? ≠ some PathPattern.deep) :
    ∃ front, tokens = front ++ [.deepEnd] ∧ PathReads lead segments front := by
  induction segments generalizing lead tokens with
  | nil =>
    cases h with
    | lastDeep => exact ⟨[], rfl, .nil⟩
    | deep hne => exact absurd rfl hne
    | segment hne => exact absurd rfl hne
  | cons cs segments ih =>
    have hothers : segments.getLast? ≠ some PathPattern.deep := by
      intro hdeep
      rw [List.getLast?_cons, hdeep] at hlast
      exact hlast rfl
    rw [List.cons_append] at h
    generalize hall : segments ++ [PathPattern.deep] = all at h
    cases h with
    | lastDeep => exact absurd hall (List.append_ne_nil_of_right_ne_nil _ (List.cons_ne_nil _ _))
    | deep _ hrest =>
      subst hall
      have hne : segments ≠ [] := by
        rintro rfl
        exact hlast rfl
      obtain ⟨front, rfl, hfront⟩ := ih hrest hothers
      exact ⟨front, rfl, .deep hne hfront⟩
    | segment hcs hread hrest =>
      subst hall
      obtain ⟨front, rfl, hfront⟩ := ih hrest hothers
      exact ⟨_, (List.append_assoc _ _ _).symm, .segment hcs hread hfront⟩

/-! ### Paths and routes -/

section Paths
open PathPattern (Aligned DeepApart aligned_nil_iff aligned_deep_iff aligned_segment_iff)
variable {globs us : List (List Char)} {tokens : List Token}

/-- A route has the slashes between its segments only. -/
theorem slash_notMem_of_mem_map_bytes (hus : ∀ u ∈ us, IsAscii u) :
    ∀ u ∈ us.map Text.bytes, slash ∉ u := by
  intro u hu
  obtain ⟨cs, hcs, rfl⟩ := List.mem_map.mp hu
  exact (hus cs hcs).slash_notMem_bytes

/-- `**` in front of a path. -/
theorem matches_deepBetween_iff_aligned (hus : ∀ u ∈ us, IsAscii u)
    (hpath : ∀ {us}, (∀ u ∈ us, IsAscii u) →
      (Matches (.literal '/' :: tokens) (flatBytes (us.map Text.bytes)) ↔ Aligned globs us)) :
    Matches (.deepBetween :: tokens) (flatBytes (us.map Text.bytes)) ↔
      Aligned (PathPattern.deep :: globs) us := by
  rw [matches_deepBetween_iff (slash_notMem_of_mem_map_bytes hus), aligned_deep_iff]
  constructor
  · rintro ⟨skipped, rest, hrest, heq⟩
    obtain ⟨skipped, rest, rfl, rfl, rfl⟩ := List.map_eq_append_iff.mp heq.symm
    have ascii : ∀ u ∈ rest, IsAscii u := fun u hu => hus u (List.mem_append_right skipped hu)
    exact ⟨skipped, rest, (hpath ascii).mp hrest, rfl⟩
  · rintro ⟨skipped, rest, hrest, rfl⟩
    have ascii : ∀ u ∈ rest, IsAscii u := fun u hu => hus u (List.mem_append_right skipped hu)
    exact ⟨_, _, (hpath ascii).mpr hrest, List.map_append.symm⟩

/-- Another segment in front of a path. -/
theorem matches_segment_iff_aligned (hus : ∀ u ∈ us, IsAscii u) {g : List Char}
    {inner : List Token} (hdeep : g ≠ PathPattern.deep) (hg : IsPlain g)
    (hread : SegmentReads g inner) (hstarts : ∀ path, Matches tokens path → StartsSlash path)
    (hpath : ∀ {us}, (∀ u ∈ us, IsAscii u) →
      (Matches tokens (flatBytes (us.map Text.bytes)) ↔ Aligned globs us)) :
    Matches (.literal '/' :: inner ++ tokens) (flatBytes (us.map Text.bytes)) ↔
      Aligned (g :: globs) us := by
  have hinner : ∀ path, Matches inner path → slash ∉ path := fun path hmatches =>
    slash_notMem_of_matches hmatches (hread.isInner hg.slash_notMem)
      (hread.coversSlash_eq_false hg)
  rw [matches_segment_iff (slash_notMem_of_mem_map_bytes hus) hinner hstarts,
    aligned_segment_iff hdeep]
  constructor
  · rintro ⟨u, rest, hu, hrest, heq⟩
    obtain ⟨u, rest, rfl, rfl, rfl⟩ := List.map_eq_cons_iff.mp heq.symm
    obtain ⟨ascii, asciiRest⟩ := List.forall_mem_cons.mp hus
    exact ⟨u, rest, (hread.matches_iff hg ascii).mp hu, (hpath asciiRest).mp hrest, rfl⟩
  · rintro ⟨u, rest, hu, hrest, rfl⟩
    obtain ⟨ascii, asciiRest⟩ := List.forall_mem_cons.mp hus
    exact ⟨_, _, (hread.matches_iff hg ascii).mpr hu, (hpath asciiRest).mpr hrest, rfl⟩

/-- **The tokens of a path match the routes that the path is aligned with**, if it does not end with
`**`. -/
theorem PathReads.matches_iff (h : PathReads (.literal '/') globs tokens)
    (plain : ∀ g ∈ globs, IsPlain g) (apart : DeepApart globs)
    (hlast : globs.getLast? ≠ some PathPattern.deep) (hus : ∀ u ∈ us, IsAscii u) :
    Matches tokens (flatBytes (us.map Text.bytes)) ↔ Aligned globs us := by
  induction globs generalizing us tokens with
  | nil =>
    cases h
    rw [matches_nil, Uri.flatBytes_eq_nil_iff, List.map_eq_nil_iff, aligned_nil_iff]
  | cons g globs ih =>
    obtain ⟨hg, hothers⟩ := List.forall_mem_cons.mp plain
    cases h with
    | lastDeep => exact absurd rfl hlast
    | deep hne hrest =>
      obtain ⟨next, globs, rfl⟩ := List.exists_cons_of_ne_nil hne
      obtain ⟨hnext, hapart⟩ := List.isChain_cons_cons.mp apart
      -- what follows is no `**`, so it reads in the same way after a slash
      obtain ⟨rest, rfl, hslash⟩ := hrest.lead (hnext rfl)
      exact matches_deepBetween_iff_aligned hus (ih hslash hothers hapart hlast)
    | segment hdeep hread hrest =>
      have hlast' : globs.getLast? ≠ some PathPattern.deep := by
        intro hdeep
        rw [List.getLast?_cons, hdeep] at hlast
        exact hlast rfl
      exact matches_segment_iff_aligned hus hdeep hg hread
        (fun _ => hrest.startsSlash fun _ htaken => ⟨[], htaken⟩)
        (ih hrest hothers apart.tail hlast')

/-- So do the tokens of a parsed path, except for the root: a path of no segment is a slash. -/
theorem matches_iff_of_parse (h : parse (PathPattern.path globs) = .ok tokens)
    (plain : ∀ g ∈ globs, IsPlain g) (apart : DeepApart globs)
    (hlast : globs.getLast? ≠ some PathPattern.deep) (hus : ∀ u ∈ us, IsAscii u)
    (hempty : [] ∉ us) (hne : us ≠ []) :
    Matches tokens (flatBytes (us.map Text.bytes)) ↔ Aligned globs us := by
  by_cases hnil : globs = []
  · subst hnil
    -- the glob is a slash, but behind the first slash of a route there is its first segment
    obtain rfl : [Token.literal '/'] = tokens := Except.ok.inj h
    rw [aligned_nil_iff, matches_slash_iff]
    refine ⟨?_, fun h => absurd h hne⟩
    rintro ⟨_, rfl, heq⟩
    obtain ⟨u, us, rfl⟩ := List.exists_cons_of_ne_nil hne
    rw [List.map_cons, flatBytes_cons] at heq
    have hu := (List.append_eq_nil_iff.mp (List.cons.inj heq).2.symm).1
    refine absurd hu (Text.bytes_ne_nil fun he => hempty ?_)
    rw [he]
    exact List.mem_cons_self
  · have reads := pathReads_of_parse h hnil (fun g hg => (plain g hg).slash_notMem)
      fun g hg => (plain g hg).closesClasses
    exact reads.matches_iff plain apart hlast hus

/-- A path that ends with `**` matches routes with more segments than the rest of it covers. -/
theorem matches_append_deep_iff_of_parse
    (h : parse (PathPattern.path (globs ++ [PathPattern.deep])) = .ok tokens)
    (plain : ∀ g ∈ globs, IsPlain g) (apart : DeepApart (globs ++ [PathPattern.deep]))
    (hus : ∀ u ∈ us, IsAscii u) :
    Matches tokens (flatBytes (us.map Text.bytes)) ↔
      ∃ front back, back ≠ [] ∧ Aligned globs front ∧ front ++ back = us := by
  obtain ⟨hglobs, -, hborder⟩ := List.isChain_append.mp apart
  have hlast : globs.getLast? ≠ some PathPattern.deep := fun hlast =>
    hborder _ hlast _ rfl rfl rfl
  have hall : ∀ g ∈ globs ++ [PathPattern.deep], IsPlain g := by
    intro g hg
    rcases List.mem_append.mp hg with hg | hg
    · exact plain g hg
    · rw [List.mem_singleton.mp hg]
      exact isPlain_deep
  have reads := pathReads_of_parse h (List.append_ne_nil_of_right_ne_nil _ (List.cons_ne_nil _ _))
    (fun g hg => (hall g hg).slash_notMem) fun g hg => (hall g hg).closesClasses
  obtain ⟨read, rfl, hread⟩ := reads.append_deep hlast
  have others : ∀ {us}, (∀ u ∈ us, IsAscii u) →
      (Matches read (flatBytes (us.map Text.bytes)) ↔ Aligned globs us) :=
    hread.matches_iff plain hglobs hlast
  rw [matches_deepEnd_iff (slash_notMem_of_mem_map_bytes hus)]
  constructor
  · rintro ⟨front, back, hne, hfront, heq⟩
    obtain ⟨front, back, rfl, rfl, rfl⟩ := List.map_eq_append_iff.mp heq.symm
    exact ⟨front, back, fun hnil => hne (by rw [hnil]; rfl),
      (others fun u hu => hus u (List.mem_append_left back hu)).mp hfront, rfl⟩
  · rintro ⟨front, back, hne, hfront, rfl⟩
    exact ⟨_, _, fun hnil => hne (List.map_eq_nil_iff.mp hnil),
      (others fun u hu => hus u (List.mem_append_left back hu)).mpr hfront, List.map_append.symm⟩

end Paths

end Glob

namespace PathPattern

/-! ### Patterns and routes -/

/-- The glob of a segment is plain if the pattern has neither classes nor escapes. -/
theorem isPlain_globOf {cs s : List Char} (hs : s ∈ segments cs)
    (plain : ∀ c ∈ cs, c ≠ '[' ∧ c ≠ '\\') : Glob.IsPlain (globOf s) := by
  intro c hc
  simp only [List.mem_cons, List.not_mem_nil, or_false, not_or]
  rcases mem_of_mem_globOf hc with rfl | ⟨hmem, hopen, hclose⟩
  · decide
  · obtain ⟨hbracket, hescape⟩ := plain c (subset_of_mem_segments hs hmem)
    exact ⟨fun he => slash_notMem_of_mem_segments hs (he ▸ hmem), hbracket, hescape, hopen, hclose⟩

/-- The segments of an ASCII route are ASCII. -/
theorem isAscii_of_mem_segments {uri : String} (ascii : ∀ c ∈ uri.toList, c.toNat < 128)
    {u : List Char} (hu : u ∈ (Uri.parse uri).segments.map String.toList) : Glob.IsAscii u := by
  obtain ⟨s, hs, rfl⟩ := List.mem_map.mp hu
  intro c hc
  exact ⟨ascii c (Uri.subset_of_mem_segments hs hc),
    fun he => (Uri.isSegment_parse hs).slash_notMem (he ▸ hc)⟩

/-- **The globs of an accepted pattern match the routes that they are aligned with.** -/
theorem exists_matches_iff_aligned {ps us : List (List Char)} {globs : List (List Glob.Token)}
    (accepted : Accepted ps globs) (plain : ∀ g ∈ ps.map globOf, Glob.IsPlain g)
    (apart : DeepApart (ps.map globOf)) (hus : ∀ u ∈ us, Glob.IsAscii u) (hempty : [] ∉ us)
    (hne : us ≠ []) :
    (∃ tokens ∈ globs, Glob.Matches tokens (flatBytes (us.map Text.bytes))) ↔
      Aligned (ps.map globOf) us := by
  rcases accepted.globs_cases with
    ⟨tokens, rfl, hlast, hparse⟩ | ⟨tokens, short, rfl, hlast, hlong, hshort⟩
  · simp only [List.mem_singleton, exists_eq_left]
    exact Glob.matches_iff_of_parse hparse plain apart hlast hus hempty hne
  · obtain ⟨front, hfront⟩ := List.getLast?_eq_some_iff.mp hlast
    rw [hfront] at plain apart hlong hshort ⊢
    rw [List.dropLast_concat] at hshort
    -- the first glob needs a segment for the last `**`, and the second glob is for none
    have hplain : ∀ g ∈ front, Glob.IsPlain g := fun g hg => plain g (List.mem_append_left _ hg)
    obtain ⟨hapart, -, hborder⟩ := List.isChain_append.mp apart
    have more := Glob.matches_append_deep_iff_of_parse hlong hplain apart hus
    have none := Glob.matches_iff_of_parse hshort hplain hapart
      (fun hdeep => hborder _ hdeep _ rfl rfl rfl) hus hempty hne
    simp only [List.mem_cons, List.not_mem_nil, or_false, exists_eq_or_imp, exists_eq_left, more,
      none, aligned_append_deep_iff]
    constructor
    · rintro (⟨covered, back, -, hcovered, heq⟩ | hcovered)
      · exact ⟨covered, back, hcovered, heq⟩
      · exact ⟨us, [], hcovered, List.append_nil us⟩
    · rintro ⟨covered, back, hcovered, rfl⟩
      by_cases hback : back = []
      · subst hback
        rw [List.append_nil]
        exact .inr hcovered
      · exact .inl ⟨covered, back, hback, hcovered, rfl⟩

/-- **A pattern covers the routes that it is aligned with**, segment by segment, if it has neither
classes nor escapes, no two `**` next to each other, and no other segment that becomes `**`. -/
theorem covers_iff_aligned (pattern uri : String) (p : PathPattern)
    (accepted : parse pattern = .ok p)
    (plain : ∀ c ∈ pattern.toList, c ≠ '[' ∧ c ≠ '\\')
    (apart : DeepApart (segments (Text.trim pattern.toList)))
    (groups : ∀ s ∈ segments (Text.trim pattern.toList), s ≠ deep → globOf s ≠ deep)
    (ascii : ∀ c ∈ uri.toList, c.toNat < 128) (notRoot : (Uri.parse uri).segments ≠ []) :
    p.covers uri = true ↔
      Aligned (segments (Text.trim pattern.toList))
        ((Uri.parse uri).segments.map String.toList) := by
  have hp := accepted_of_parse accepted
  have hbytes : (Uri.parse uri).segmentBytes =
      ((Uri.parse uri).segments.map String.toList).map Text.bytes := List.map_map.symm
  have hplain : ∀ g ∈ (segments (Text.trim pattern.toList)).map globOf, Glob.IsPlain g := by
    intro g hg
    obtain ⟨s, hs, rfl⟩ := List.mem_map.mp hg
    exact isPlain_globOf hs fun c hc => plain c (Text.subset_trim _ hc)
  have hempty : [] ∉ (Uri.parse uri).segments.map String.toList := by
    intro hmem
    obtain ⟨s, hs, hnil⟩ := List.mem_map.mp hmem
    exact (Uri.isSegment_parse hs).ne_nil hnil
  calc p.covers uri = true
      ↔ ∃ tokens ∈ p.globs, Glob.Matches tokens
          (flatBytes (((Uri.parse uri).segments.map String.toList).map Text.bytes)) := by
        rw [covers_iff, Uri.bytes_text notRoot, hbytes]
    _ ↔ Aligned ((segments (Text.trim pattern.toList)).map globOf)
          ((Uri.parse uri).segments.map String.toList) :=
        exists_matches_iff_aligned hp hplain (apart.map_globOf groups)
          (fun _ => isAscii_of_mem_segments ascii) hempty
          fun hnil => notRoot (List.map_eq_nil_iff.mp hnil)
    _ ↔ Aligned (segments (Text.trim pattern.toList))
          ((Uri.parse uri).segments.map String.toList) :=
        aligned_map_globOf_iff hp.segmentGlob_eq groups

/-- A pattern with `**` inside and at its end, where it covers nothing. -/
theorem aligned_nested_file :
    ∃ p, parse "/api/**/\x7bid\x7d.js?n/**" = .ok p ∧ p.covers "api//v1/x/7.json" = true ∧
      Aligned (segments (Text.trim "/api/**/\x7bid\x7d.js?n/**".toList))
        ((Uri.parse "api//v1/x/7.json").segments.map String.toList) := by
  obtain ⟨p, hp⟩ : ∃ p, (parse "/api/**/\x7bid\x7d.js?n/**").toOption = some p :=
    Option.isSome_iff_exists.mp (by decide +kernel)
  have covered : p.covers "api//v1/x/7.json" = true := by
    have all : ((parse "/api/**/\x7bid\x7d.js?n/**").toOption.all
        fun p => p.covers "api//v1/x/7.json") = true := by decide +kernel
    rwa [hp] at all
  have plain : ("/api/**/\x7bid\x7d.js?n/**".toList.all fun c => c ≠ '[' ∧ c ≠ '\\') = true := by
    decide +kernel
  have ascii : ("api//v1/x/7.json".toList.all fun c => c.toNat < 128) = true := by decide +kernel
  refine ⟨p, ok_of_toOption hp, covered, ?_⟩
  exact (covers_iff_aligned _ _ p (ok_of_toOption hp)
    (fun c hc => of_decide_eq_true (List.all_eq_true.mp plain c hc))
    (by unfold DeepApart; decide +kernel) (by decide +kernel)
    (fun c hc => of_decide_eq_true (List.all_eq_true.mp ascii c hc))
    (by decide +kernel)).mp covered

/-- Two `**` at the end need a segment. -/
example : ((parse "/a/**/**").toOption.map fun p => p.covers "/a") = some false := by
  decide +kernel

/-- A character from 128 on is more than a question mark covers. -/
example : ((parse "/?").toOption.map fun p => p.covers "/\u00e9") = some false := by decide +kernel

end PathPattern
end RouteBook
