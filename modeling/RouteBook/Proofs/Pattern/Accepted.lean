import RouteBook.Proofs.Http.Compose
import RouteBook.Proofs.Pattern.Reading
import RouteBook.Proofs.Steps
/-! # What an accepted pattern stands for

An accepted pattern has a glob for each of its segments (`globOf`), with stars in place of groups
(`Replaced`), and they make up the path that is read into tokens.  A pattern that ends with `**` has another path, without that segment.  It
covers a route iff the tokens of one of these paths match the bytes of the route (`covers_iff`).
The bytes of a route other than the root are those of its segments with a slash before each.
-/
namespace RouteBook

/-! ### The bytes of a route -/

namespace Uri

/-- The bytes of the segments of a route. -/
def segmentBytes (uri : Uri) : List (List UInt8) := uri.segments.map fun s => Text.bytes s.toList

/-- The bytes of segments, with a slash before each. -/
def flatBytes (segments : List (List UInt8)) : List UInt8 := segments.flatMap (Glob.slash :: ·)

theorem bytes_text {uri : Uri} (h : uri.segments ≠ []) :
    Text.bytes uri.text.toList = flatBytes uri.segmentBytes := by
  rw [toList_text_of_ne_nil h, segmentBytes, flatBytes, Text.bytes, List.flatMap_map,
    List.flatMap_map, List.flatMap_assoc]
  refine congrArg (List.flatMap · uri.segments) (funext fun s => ?_)
  rw [List.flatMap_cons, Text.utf8EncodeChar_slash]
  rfl

theorem isSegment_parse {path s : String} (h : s ∈ (parse path).segments) : IsSegment s := by
  rw [segments_parse] at h
  exact isSegment_of_mem_segmentsOf h

theorem subset_of_mem_segments {path s : String} (h : s ∈ (parse path).segments) :
    s.toList ⊆ path.toList := by
  rw [segments_parse] at h
  obtain ⟨cs, hcs, rfl⟩ := List.mem_map.mp h
  obtain ⟨piece, hpiece, rfl⟩ := List.mem_map.mp (List.mem_filter.mp hcs).1
  rw [String.toList_ofList]
  exact fun c hc => Text.subset_of_mem_splitAt hpiece (Text.subset_trim piece hc)

/-- No segment of a route is empty or has a slash in it. -/
theorem slash_notMem_segmentBytes {path : String} :
    ∀ u ∈ (parse path).segmentBytes, u ≠ [] ∧ Glob.slash ∉ u := by
  intro u hu
  obtain ⟨s, hs, rfl⟩ := List.mem_map.mp hu
  have segment := isSegment_parse hs
  exact ⟨Text.bytes_ne_nil segment.ne_nil, Text.slash_notMem_bytes segment.slash_notMem⟩

theorem flatBytes_cons (u : List UInt8) (us : List (List UInt8)) :
    flatBytes (u :: us) = Glob.slash :: (u ++ flatBytes us) := List.flatMap_cons

theorem flatBytes_eq_nil_iff {us : List (List UInt8)} : flatBytes us = [] ↔ us = [] := by
  cases us with
  | nil => exact ⟨fun _ => rfl, fun _ => rfl⟩
  | cons u us =>
    constructor <;> exact nofun

theorem count_slash_flatBytes {us : List (List UInt8)} (h : ∀ u ∈ us, Glob.slash ∉ u) :
    (flatBytes us).count Glob.slash = us.length := by
  induction us with
  | nil => rfl
  | cons u us ih =>
    rw [flatBytes_cons, List.count_cons_self, List.count_append,
      List.count_eq_zero.mpr (h u List.mem_cons_self),
      ih fun v hv => h v (List.mem_cons_of_mem u hv), Nat.zero_add, List.length_cons]

end Uri

/-! ### Globs of segments -/

namespace PathPattern

/-- The glob of a segment, if it has one. -/
def globOf (segment : List Char) : List Char := (segmentGlob segment).toOption.getD []

theorem globOf_eq {segment glob : List Char} (h : segmentGlob segment = .ok glob) :
    globOf segment = glob := by rw [globOf, h]; rfl

theorem exists_of_map_eq_ok {α : Type} {x : Except α (List Char)} {c : Char} {glob : List Char}
    (h : x.map (c :: ·) = .ok glob) : ∃ tail, x = .ok tail ∧ glob = c :: tail := by
  cases x with
  | error fault => cases h
  | ok tail =>
    cases h
    exact ⟨tail, rfl, rfl⟩

/-- **A text and its glob**: a group is replaced by a star, and any other character is left. -/
inductive Replaced : List Char → List Char → Prop where
  | nil : Replaced [] []
  | char {c cs glob} : c ≠ '\x7b' → c ≠ '\x7d' → Replaced cs glob → Replaced (c :: cs) (c :: glob)
  | group {name cs glob} : '\x7b' ∉ name → '\x7d' ∉ name → Replaced cs glob →
      Replaced ('\x7b' :: (name ++ '\x7d' :: cs)) ('*' :: glob)

/-- How groups are replaced.  Inside a group, the part of its name that has been read goes before what
is left. -/
theorem replaced_of_replaceGroups {inGroup : Bool} {cs glob : List Char}
    (h : replaceGroups inGroup cs = .ok glob) :
    (inGroup = false → Replaced cs glob) ∧
      (inGroup = true → ∀ name, '\x7b' ∉ name → '\x7d' ∉ name →
        Replaced ('\x7b' :: (name ++ cs)) glob) := by
  induction cs generalizing inGroup glob with
  | nil =>
    cases inGroup with
    | true => cases h
    | false =>
      cases h
      exact ⟨fun _ => .nil, nofun⟩
  | cons c cs ih =>
    cases inGroup with
    | true =>
      refine ⟨nofun, fun _ name hopen hclose => ?_⟩
      rw [replaceGroups, if_pos rfl] at h
      by_cases hend : c = '\x7d'
      · rw [if_pos hend] at h
        obtain ⟨tail, htail, rfl⟩ := exists_of_map_eq_ok h
        rw [hend]
        exact .group hopen hclose ((ih htail).1 rfl)
      · rw [if_neg hend] at h
        by_cases hnested : c = '\x7b'
        · rw [if_pos hnested] at h
          cases h
        · rw [if_neg hnested] at h
          have longer := (ih h).2 rfl (name ++ [c])
          rw [List.append_assoc, List.singleton_append] at longer
          apply longer
          · simpa [hopen] using fun he => hnested he.symm
          · simpa [hclose] using fun he => hend he.symm
    | false =>
      refine ⟨fun _ => ?_, nofun⟩
      rw [replaceGroups, if_neg Bool.false_ne_true] at h
      by_cases hopen : c = '\x7b'
      · rw [if_pos hopen] at h
        rw [hopen]
        exact (ih h).2 rfl [] List.not_mem_nil List.not_mem_nil
      · rw [if_neg hopen] at h
        by_cases hclose : c = '\x7d'
        · rw [if_pos hclose] at h
          cases h
        · rw [if_neg hclose] at h
          obtain ⟨tail, htail, rfl⟩ := exists_of_map_eq_ok h
          exact .char hopen hclose ((ih htail).1 rfl)

/-- A glob has stars and characters of the text in it, but no braces. -/
theorem Replaced.mem_cases {cs glob : List Char} (h : Replaced cs glob) :
    ∀ c ∈ glob, c = '*' ∨ c ∈ cs ∧ c ≠ '\x7b' ∧ c ≠ '\x7d' := by
  induction h with
  | nil => exact fun _ hc => absurd hc List.not_mem_nil
  | @char d cs _ hopen hclose _ ih =>
    intro c hc
    rcases List.mem_cons.mp hc with rfl | hc
    · exact .inr ⟨List.mem_cons_self, hopen, hclose⟩
    · exact (ih c hc).imp_right fun hc => ⟨List.mem_cons_of_mem d hc.1, hc.2⟩
  | @group name cs _ _ _ _ ih =>
    intro c hc
    rcases List.mem_cons.mp hc with rfl | hc
    · exact .inl rfl
    · refine (ih c hc).imp_right fun hc => ⟨?_, hc.2⟩
      exact List.mem_cons_of_mem _ (List.mem_append_right name (List.mem_cons_of_mem _ hc.1))

theorem replaceGroups_of_segmentGlob {segment glob : List Char}
    (h : segmentGlob segment = .ok glob) : replaceGroups false segment = .ok glob := by
  unfold segmentGlob at h
  split at h
  · cases h
  · exact h

/-- A segment with a glob has its groups replaced there. -/
theorem replaced_of_segmentGlob {segment glob : List Char} (h : segmentGlob segment = .ok glob) :
    Replaced segment glob :=
  (replaced_of_replaceGroups (replaceGroups_of_segmentGlob h)).1 rfl

theorem mem_of_mem_globOf {segment : List Char} {c : Char} (h : c ∈ globOf segment) :
    c = '*' ∨ c ∈ segment ∧ c ≠ '\x7b' ∧ c ≠ '\x7d' := by
  cases hglob : segmentGlob segment with
  | error fault =>
    rw [globOf, hglob] at h
    exact absurd h List.not_mem_nil
  | ok glob =>
    rw [globOf_eq hglob] at h
    exact (replaced_of_segmentGlob hglob).mem_cases c h

theorem segmentGlob_deep : segmentGlob deep = .ok deep := rfl

theorem subset_of_mem_segments {cs segment : List Char} (h : segment ∈ segments cs) :
    segment ⊆ cs := Text.subset_of_mem_splitAt (List.mem_filter.mp h).1

theorem slash_notMem_of_mem_segments {cs segment : List Char} (h : segment ∈ segments cs) :
    '/' ∉ segment := Text.notMem_of_mem_splitAt (List.mem_filter.mp h).1

/-! ### Accepted patterns -/

theorem parse_of_compile {glob : List Char} {tokens : List Glob.Token}
    (h : compile glob = .ok tokens) : Glob.parse glob = .ok tokens := by
  unfold compile at h
  cases hparse : Glob.parse glob with
  | error fault =>
    rw [hparse] at h
    cases h
  | ok tokens' =>
    rw [hparse] at h
    exact congrArg Except.ok (Except.ok.inj h)

/-- What it means for a pattern to be accepted: every segment has a glob, and so have the paths. -/
structure Accepted (segments : List (List Char)) (globs : List (List Glob.Token)) : Prop where
  segmentGlob_eq : ∀ s ∈ segments, segmentGlob s = .ok (globOf s)
  globs_cases :
    (∃ tokens, globs = [tokens] ∧ (segments.map globOf).getLast? ≠ some deep ∧
      Glob.parse (path (segments.map globOf)) = .ok tokens) ∨
    ∃ tokens short, globs = [tokens, short] ∧ (segments.map globOf).getLast? = some deep ∧
      Glob.parse (path (segments.map globOf)) = .ok tokens ∧
      Glob.parse (path (segments.map globOf).dropLast) = .ok short

/-- The path of all segments is read into one of the globs. -/
theorem Accepted.exists_parse_eq_ok {segments : List (List Char)}
    {globs : List (List Glob.Token)} (h : Accepted segments globs) :
    ∃ tokens ∈ globs, Glob.parse (path (segments.map globOf)) = .ok tokens := by
  rcases h.globs_cases with ⟨tokens, rfl, -, hparse⟩ | ⟨tokens, short, rfl, -, hparse, -⟩
  · exact ⟨tokens, List.mem_cons_self, hparse⟩
  · exact ⟨tokens, List.mem_cons_self, hparse⟩

theorem accepted_of_parse {pattern : String} {p : PathPattern} (h : parse pattern = .ok p) :
    Accepted (segments (Text.trim pattern.toList)) p.globs := by
  obtain ⟨globs, hglobs, hp⟩ : ∃ globs, globsOf (Text.trim pattern.toList) = .ok globs ∧
      p.globs = globs := by
    unfold parse at h
    dsimp only at h
    split at h
    · cases h
    · cases h
      exact ⟨_, ‹_›, rfl⟩
  obtain ⟨segmentGlobs, hsegments, hpaths⟩ : ∃ segmentGlobs,
      (segments (Text.trim pattern.toList)).mapM segmentGlob = .ok segmentGlobs ∧
      (if segmentGlobs.getLast? = some deep then
          [path segmentGlobs, path segmentGlobs.dropLast]
        else [path segmentGlobs]).mapM compile = .ok globs := by
    unfold globsOf at hglobs
    dsimp only at hglobs
    split at hglobs
    · cases hglobs
    · split at hglobs
      · cases hglobs
      · exact bind_eq_ok hglobs
  have each := mapM_eq_ok hsegments
  have hmap : (segments (Text.trim pattern.toList)).map globOf = segmentGlobs := by
    have h := congrArg (List.map fun glob => (Except.toOption glob).getD []) each
    rw [List.map_map, List.map_map] at h
    exact h.trans (List.map_id _)
  rw [hp]
  constructor
  · intro s hs
    have hmem : segmentGlob s ∈ segmentGlobs.map Except.ok := each ▸ List.mem_map_of_mem hs
    obtain ⟨glob, -, hglob⟩ := List.mem_map.mp hmem
    rw [globOf_eq hglob.symm, hglob]
  · rw [hmap]
    have compiled := mapM_eq_ok hpaths
    split at compiled
    · rename_i hlast
      obtain ⟨tokens, rest, rfl, hlong, hrest⟩ := List.map_eq_cons_iff.mp compiled.symm
      obtain ⟨short, rest, rfl, hshort, hnil⟩ := List.map_eq_cons_iff.mp hrest
      obtain rfl := List.map_eq_nil_iff.mp hnil
      exact .inr ⟨tokens, short, rfl, hlast, parse_of_compile hlong.symm,
        parse_of_compile hshort.symm⟩
    · rename_i hlast
      obtain ⟨tokens, rest, rfl, hlong, hnil⟩ := List.map_eq_cons_iff.mp compiled.symm
      obtain rfl := List.map_eq_nil_iff.mp hnil
      exact .inl ⟨tokens, rfl, hlast, parse_of_compile hlong.symm⟩

/-- A pattern covers a route iff one of its globs matches the bytes of the route. -/
theorem covers_iff {p : PathPattern} {uri : String} :
    p.covers uri = true ↔
      ∃ tokens ∈ p.globs, Glob.Matches tokens (Text.bytes (Uri.parse uri).text.toList) := by
  unfold covers
  simp only [List.any_eq_true, Glob.isMatch_iff_matches]

end PathPattern
end RouteBook
