import RouteBook.Document.Project
import RouteBook.Proofs.Pattern.Alignment
import RouteBook.Proofs.Pattern.Extensions
import RouteBook.Proofs.Pattern.Filter
/-! # Routes as patterns of themselves

A route that is documented may be copied into a filter.  Its text need not be meant as a pattern, and
stars, question marks and groups in it are wild then.  But what is wild covers its own spelling as
well: a star covers a star, a question mark covers a question mark, a group covers the group, and
`**` covers the segment `**` and whatever follows it.  So a route that reads as a pattern is covered
by this pattern (`Glob.PathReads.matches_self`, `covers_text_self`).

Only a class and an escape do not cover their own spelling, as `[ab]` does not cover a bracket.
Inside a group they do no harm, because the group becomes a star before the glob is read
(`Replaced.notMem`).

To be kept by a filter is more than that, because a filter asks a set of globs.  A route whose last
segment goes up has no extension, and so its text selects it only if there is nothing wild in it
(`finds_text_self_iff`).
-/
namespace RouteBook

open Uri (flatBytes flatBytes_cons)

namespace PathPattern

/-! ### Characters inside groups -/

/-- The character stands in groups only: a brace that opens one goes before it and a brace that
closes one comes behind it, with no braces in between. -/
def OnlyInGroups (c : Char) (cs : List Char) : Prop :=
  ∀ before after, cs = before ++ c :: after →
    ∃ front name rest back, before = front ++ '\x7b' :: name ∧ after = rest ++ '\x7d' :: back ∧
      ('\x7b' ∉ name ∧ '\x7d' ∉ name) ∧ '\x7b' ∉ rest ∧ '\x7d' ∉ rest

theorem onlyInGroups_of_notMem {c : Char} {cs : List Char} (h : c ∉ cs) : OnlyInGroups c cs := by
  rintro before after rfl
  exact absurd (List.mem_append_right before List.mem_cons_self) h

/-- The first character of a text is in no group. -/
theorem OnlyInGroups.head_ne {c d : Char} {cs : List Char} (h : OnlyInGroups c (d :: cs)) :
    d ≠ c := by
  rintro rfl
  obtain ⟨front, name, -, -, hfront, -⟩ := h [] cs rfl
  exact List.append_ne_nil_of_right_ne_nil front (List.cons_ne_nil _ name) hfront.symm

/-- A character that opens no group may be left out in front. -/
theorem OnlyInGroups.tail {c d : Char} {cs : List Char} (h : OnlyInGroups c (d :: cs))
    (hopen : d ≠ '\x7b') : OnlyInGroups c cs := by
  rintro before after rfl
  obtain ⟨front, name, rest, back, hfront, hback, hname, hrest⟩ := h (d :: before) after rfl
  cases front with
  | nil => exact absurd (List.cons.inj hfront).1 hopen
  | cons first front =>
    exact ⟨front, name, rest, back, (List.cons.inj hfront).2, hback, hname, hrest⟩

/-- And so may a group. -/
theorem OnlyInGroups.behind_group {c : Char} (start : List Char) {cs : List Char}
    (h : OnlyInGroups c (start ++ '\x7d' :: cs)) : OnlyInGroups c cs := by
  rintro before after rfl
  obtain ⟨front, name, rest, back, hfront, hback, hname, hrest⟩ :=
    h (start ++ '\x7d' :: before) after (by rw [List.append_assoc, List.cons_append])
  -- the brace that closes the first group is not in `name`, so all of `name` is behind it
  rcases List.append_eq_append_iff.mp hfront with ⟨more, rfl, hmore⟩ | ⟨more, rfl, hmore⟩
  · cases more with
    | nil => cases hmore
    | cons first more =>
      exact ⟨more, name, rest, back, (List.cons.inj hmore).2, hback, hname, hrest⟩
  · have inside : '\x7d' ∈ '\x7b' :: name := by
      rw [hmore]
      exact List.mem_append_right more List.mem_cons_self
    rcases List.mem_cons.mp inside with he | hmem
    · cases he
    · exact absurd hmem hname.2

/-- **Nothing is left of what stands in groups**, except for the stars. -/
theorem Replaced.notMem {c : Char} (hstar : c ≠ '*') {cs glob : List Char}
    (h : Replaced cs glob) (only : OnlyInGroups c cs) : c ∉ glob := by
  induction h with
  | nil => exact List.not_mem_nil
  | char hopen _ _ ih =>
    apply List.not_mem_cons_of_ne_of_not_mem only.head_ne.symm
    exact ih (only.tail hopen)
  | @group name _ _ _ _ _ ih =>
    apply List.not_mem_cons_of_ne_of_not_mem hstar
    exact ih (only.behind_group ('\x7b' :: name))

/-- Groups of one text go on in another one behind it. -/
theorem Replaced.append {cs more glob moreGlob : List Char} (h : Replaced cs glob)
    (hmore : Replaced more moreGlob) : Replaced (cs ++ more) (glob ++ moreGlob) := by
  induction h with
  | nil => exact hmore
  | char hopen hclose _ ih => exact .char hopen hclose ih
  | group hopen hclose _ ih =>
    rw [List.cons_append, List.append_assoc, List.cons_append]
    exact .group hopen hclose ih

/-- The groups of a path are those of its segments. -/
theorem replaced_flatMap {segments : List (List Char)}
    (h : ∀ s ∈ segments, segmentGlob s = .ok (globOf s)) :
    Replaced (segments.flatMap ('/' :: ·)) ((segments.map globOf).flatMap ('/' :: ·)) := by
  induction segments with
  | nil => exact .nil
  | cons s segments ih =>
    obtain ⟨hs, hothers⟩ := List.forall_mem_cons.mp h
    rw [List.map_cons, List.flatMap_cons, List.flatMap_cons]
    exact .char (by decide) (by decide) ((replaced_of_segmentGlob hs).append (ih hothers))

/-- So the globs of the segments are without a character that stands in groups only. -/
theorem notMem_globOf_of_onlyInGroups {c : Char} (hstar : c ≠ '*') {segments : List (List Char)}
    (h : ∀ s ∈ segments, segmentGlob s = .ok (globOf s))
    (only : OnlyInGroups c (segments.flatMap ('/' :: ·))) :
    ∀ s ∈ segments, c ∉ globOf s := by
  intro s hs hmem
  apply (replaced_flatMap h).notMem hstar only
  exact List.mem_flatMap.mpr
    ⟨globOf s, List.mem_map_of_mem hs, List.mem_cons_of_mem '/' hmem⟩

end PathPattern

namespace Glob
open PathPattern (Replaced globOf)

/-! ### What is wild covers itself -/

/-- What a token takes goes in front of what the others match. -/
theorem Matches.cons {token : Token} {tokens : List Token} {taken rest : List UInt8}
    (htaken : token.Takes taken) (hrest : Matches tokens rest) :
    Matches (token :: tokens) (taken ++ rest) := ⟨taken, rest, htaken, hrest, rfl⟩

/-- **A segment is matched by its own glob.** -/
theorem SegmentReads.matches_self {segment glob : List Char} {tokens : List Token}
    (hread : SegmentReads glob tokens) (h : Replaced segment glob) (hslash : '/' ∉ segment)
    (simple : IsSimple glob) : Matches tokens (Text.bytes segment) := by
  induction h generalizing tokens with
  | nil =>
    cases hread
    exact matches_nil.mpr rfl
  | @char c cs glob _ _ _ ih =>
    obtain ⟨hc, hcs⟩ := List.ne_and_not_mem_of_not_mem_cons hslash
    have rest : ∀ {others}, SegmentReads glob others → Matches others (Text.bytes cs) :=
      fun hread => ih hread hcs simple.tail
    rw [Text.bytes_cons]
    cases hread with
    | star hread =>
      have spelled : Token.anyRun.Takes (String.utf8EncodeChar '*') := by
        intro hmem
        exact hc (Text.slash_mem_utf8EncodeChar hmem).symm
      exact (rest hread).cons spelled
    | question hread =>
      have spelled : Token.anyOne.Takes (String.utf8EncodeChar '?') := ⟨0x3F, by decide, by decide⟩
      exact (rest hread).cons spelled
    | char _ hread =>
      have spelled : (Token.literal c).Takes (String.utf8EncodeChar c) := rfl
      exact (rest hread).cons spelled
    | bracket => exact absurd List.mem_cons_self simple.1
    | escape => exact absurd List.mem_cons_self simple.2
    | lastEscape => exact absurd List.mem_cons_self simple.2
  | @group name cs glob _ _ _ ih =>
    have apart : '\x7b' :: (name ++ '\x7d' :: cs) = ('\x7b' :: (name ++ ['\x7d'])) ++ cs := by
      rw [List.cons_append, List.append_assoc, List.singleton_append]
    rw [apart] at hslash ⊢
    obtain ⟨hgroup, hcs⟩ := not_or.mp fun hmem => hslash (List.mem_append.mpr hmem)
    rw [Text.bytes_append]
    cases hread with
    | star hread =>
      have spelled : Token.anyRun.Takes (Text.bytes ('\x7b' :: (name ++ ['\x7d']))) :=
        Text.slash_notMem_bytes hgroup
      exact (ih hread hcs simple.tail).cons spelled
    | char hspecial => exact absurd (by decide) hspecial

/-- **A path is matched by its own tokens.**  Before it may stand what `**` has skipped of the path
so far: then `lead` takes that up, and the slash behind it. -/
theorem PathReads.matches_self {lead : Token} {segments : List (List Char)} {tokens : List Token}
    {skipped : List UInt8} (h : PathReads lead (segments.map globOf) tokens)
    (inside : ∀ s ∈ segments, ∀ read, SegmentReads (globOf s) read → Matches read (Text.bytes s))
    (hlead : lead.Takes (skipped ++ [slash])) (hstarts : StartsSlash skipped)
    (hne : segments = [] → skipped = []) :
    Matches tokens (skipped ++ flatBytes (segments.map Text.bytes)) := by
  induction segments generalizing lead tokens skipped with
  | nil =>
    cases h
    rw [hne rfl]
    exact matches_nil.mpr rfl
  | cons s segments ih =>
    obtain ⟨own, others⟩ := List.forall_mem_cons.mp inside
    have first : StartsSlash (skipped ++ slash :: Text.bytes s) := by
      rcases hstarts with rfl | ⟨rest, rfl⟩
      · exact .inr ⟨_, rfl⟩
      · exact .inr ⟨_, rfl⟩
    have apart : skipped ++ flatBytes ((s :: segments).map Text.bytes) =
        (skipped ++ slash :: Text.bytes s) ++ flatBytes (segments.map Text.bytes) := by
      rw [List.map_cons, flatBytes_cons, List.append_assoc, List.cons_append]
    rw [List.map_cons] at h
    generalize hglob : globOf s = glob at h
    generalize hglobs : segments.map globOf = globs at h
    cases h with
    | lastDeep =>
      obtain rfl := List.map_eq_nil_iff.mp hglobs
      obtain ⟨rest, hrest⟩ : ∃ rest, skipped ++ slash :: Text.bytes s = slash :: rest :=
        first.resolve_left (List.append_ne_nil_of_right_ne_nil skipped (List.cons_ne_nil _ _))
      have all : Token.deepEnd.Takes (skipped ++ slash :: Text.bytes s) := ⟨rest, hrest⟩
      rw [apart]
      exact Matches.cons all (matches_nil.mpr rfl)
    | deep hne' hrest =>
      subst hglobs
      rw [apart]
      apply ih hrest others
      · exact ⟨_, first, rfl⟩
      · exact first
      · rintro rfl
        exact absurd rfl hne'
    | @segment _ _ _ read tokens _ hread hrest =>
      subst hglobs
      have here : Matches read (Text.bytes s) := own read (hglob ▸ hread)
      have behind : Matches tokens ([] ++ flatBytes (segments.map Text.bytes)) :=
        ih hrest others Text.utf8EncodeChar_slash.symm (.inl rfl) fun _ => rfl
      rw [List.map_cons, flatBytes_cons, List.append_cons]
      apply Matches.cons hlead
      exact matches_append.mpr ⟨_, _, here, behind, rfl⟩

end Glob

/-- **Built of paths**: one is parsed, and others are added. -/
inductive Uri.IsBuilt : Uri → Prop where
  | parse (path) : IsBuilt (Uri.parse path)
  | add {uri} (path) : IsBuilt uri → IsBuilt (uri.add path)

theorem Uri.IsBuilt.isSegment {uri : Uri} (h : uri.IsBuilt) : ∀ s ∈ uri.segments, IsSegment s := by
  induction h with
  | parse path => exact fun s hs => isSegment_parse hs
  | add path _ ih =>
    intro s hs
    rcases List.mem_append.mp hs with hs | hs
    · exact ih s hs
    · exact isSegment_of_mem_segmentsOf hs

namespace PathPattern

/-! ### Routes -/

/-- As a pattern, the text of a route has the segments of the route. -/
theorem segments_trim_text {uri : Uri} (h : ∀ s ∈ uri.segments, Uri.IsSegment s) :
    segments (Text.trim uri.text.toList) = uri.segments.map String.toList := by
  rw [Uri.trim_text h]
  by_cases hne : uri.segments = []
  · rw [Uri.text, hne]
    rfl
  · rw [segments, Uri.splitAt_text hne h, List.filter_cons_of_neg (by decide),
      Uri.filter_ne_nil_segments h]

/-- One of the globs of a pattern matches its own segments. -/
theorem Accepted.exists_matches_self {segments : List (List Char)}
    {globs : List (List Glob.Token)} (h : Accepted segments globs) (hne : segments ≠ [])
    (slashless : ∀ s ∈ segments, '/' ∉ s)
    (simple : ∀ s ∈ segments, Glob.IsSimple (globOf s)) :
    ∃ tokens ∈ globs, Glob.Matches tokens (flatBytes (segments.map Text.bytes)) := by
  obtain ⟨tokens, htokens, hparse⟩ := h.exists_parse_eq_ok
  have inside : ∀ s ∈ segments, ∀ read, Glob.SegmentReads (globOf s) read →
      Glob.Matches read (Text.bytes s) := by
    intro s hs read hread
    have replaced : Replaced s (globOf s) := replaced_of_segmentGlob (h.segmentGlob_eq s hs)
    exact hread.matches_self replaced (slashless s hs) (simple s hs)
  have reads := pathReads_of_isSimple slashless simple hne hparse
  have slash : (Glob.Token.literal '/').Takes ([] ++ [Glob.slash]) :=
    Text.utf8EncodeChar_slash.symm
  exact ⟨tokens, htokens, reads.matches_self inside slash (.inl rfl) fun _ => rfl⟩

/-- What the text of a route stands for as a pattern, if it is one. -/
theorem accepted_text {uri : Uri} (segment : ∀ s ∈ uri.segments, Uri.IsSegment s) {p : PathPattern}
    (hp : parse uri.text = .ok p) : Accepted (uri.segments.map String.toList) p.globs := by
  have accepted := accepted_of_parse hp
  rwa [segments_trim_text segment] at accepted

/-- No bracket and no backslash that stands in a group only is left in the globs of the segments. -/
theorem isSimple_globOf {uri : Uri} (ne : uri.segments ≠ [])
    (hclass : OnlyInGroups '[' uri.text.toList) (hescape : OnlyInGroups '\\' uri.text.toList)
    {globs : List (List Glob.Token)} (h : Accepted (uri.segments.map String.toList) globs) :
    ∀ s ∈ uri.segments.map String.toList, Glob.IsSimple (globOf s) := by
  rw [Uri.toList_text_of_ne_nil ne] at hclass hescape
  have noClass := notMem_globOf_of_onlyInGroups (by decide) h.segmentGlob_eq hclass
  have noEscape := notMem_globOf_of_onlyInGroups (by decide) h.segmentGlob_eq hescape
  exact fun s hs => ⟨noClass s hs, noEscape s hs⟩

theorem slash_notMem_segments {uri : Uri} (segment : ∀ s ∈ uri.segments, Uri.IsSegment s) :
    ∀ s ∈ uri.segments.map String.toList, '/' ∉ s :=
  List.forall_mem_map.mpr fun s hs => (segment s hs).slash_notMem

theorem parse_text {uri : Uri} (segment : ∀ s ∈ uri.segments, Uri.IsSegment s) :
    Uri.parse uri.text = uri :=
  congrArg Uri.mk ((Uri.segments_parse uri.text).trans (Uri.segmentsOf_text segment))

/-- **A route is covered by its text as a pattern.** -/
theorem covers_text_self {uri : Uri} (segment : ∀ s ∈ uri.segments, Uri.IsSegment s)
    (hclass : OnlyInGroups '[' uri.text.toList) (hescape : OnlyInGroups '\\' uri.text.toList)
    {p : PathPattern} (hp : parse uri.text = .ok p) : p.covers uri.text = true := by
  have accepted := accepted_text segment hp
  rw [covers_iff, parse_text segment]
  by_cases hroot : uri.segments = []
  · obtain ⟨tokens, htokens, hparse⟩ := accepted.exists_parse_eq_ok
    rw [hroot] at hparse
    obtain rfl : [Glob.Token.literal '/'] = tokens := Except.ok.inj hparse
    refine ⟨_, htokens, ?_⟩
    rw [Uri.text, hroot]
    exact Glob.Matches.cons rfl (Glob.matches_nil.mpr rfl)
  · have segments_ne : uri.segments.map String.toList ≠ [] :=
      fun hnil => hroot (List.map_eq_nil_iff.mp hnil)
    have covered := accepted.exists_matches_self segments_ne (slash_notMem_segments segment)
      (isSimple_globOf hroot hclass hescape accepted)
    rw [Uri.bytes_text hroot]
    rwa [List.map_map] at covered

/-- **Whether a route is found by its text as a pattern.**  A set finds it iff the last segment is the
name of a file, or nothing in the text is wild. -/
theorem finds_text_self_iff {uri : Uri} (segment : ∀ s ∈ uri.segments, Uri.IsSegment s)
    (hclass : OnlyInGroups '[' uri.text.toList) (hescape : OnlyInGroups '\\' uri.text.toList)
    {p : PathPattern} (hp : parse uri.text = .ok p) {isName : List UInt8 → Bool}
    (names : Glob.AcceptsNames isName) :
    Glob.finds isName p.globs uri.text.toList = true ↔
      isName (Glob.lastName (Text.bytes uri.text.toList)) = true ∨ IsTame uri.text.toList := by
  have covered : (p.globs.any fun glob => Glob.isMatch glob uri.text.toList) = true := by
    have covered := covers_text_self segment hclass hescape hp
    rwa [covers, parse_text segment] at covered
  by_cases name : isName (Glob.lastName (Text.bytes uri.text.toList)) = true
  · exact iff_of_true ((Glob.finds_eq_any name p.globs).trans covered) (.inl name)
  have accepted := accepted_text segment hp
  obtain ⟨last, hlast, pointed⟩ := Glob.exists_point_of_not_isName segment names name
  have hroot : uri.segments ≠ [] := List.ne_nil_of_mem (List.mem_of_getLast? hlast)
  have simple := isSimple_globOf hroot hclass hescape accepted
  have slashless := slash_notMem_segments segment
  have here : (uri.segments.map String.toList).getLast? = some last.toList := by
    rw [List.getLast?_map, hlast]
    rfl
  rw [Uri.toList_text_of_ne_nil hroot, isTame_flatMap_iff, ← Uri.toList_text_of_ne_nil hroot]
  constructor
  · intro found
    by_contra neither
    exact name (accepted.isName_of_finds slashless simple here pointed (not_or.mp neither).2 found)
  · intro h
    have tame := h.resolve_left name
    have ne : uri.segments.map String.toList ≠ [] := fun hnil => hroot (List.map_eq_nil_iff.mp hnil)
    rw [Glob.finds_eq_any_of fun tokens htokens needs =>
      absurd needs (accepted.not_needsExtension slashless simple ne tame tokens htokens)]
    exact covered

/-- **When a documented route selects itself.**  If the text of a route is a pattern, it covers the
route, provided that brackets and backslashes stand in groups only.  A filter with this pattern as the
only one that selects can be made, whatever patterns exclude.  It keeps the endpoints of the route if
its sets answer whether one of their globs matches.  But the sets that are used keep them iff the last
segment of the route does not go up, or nothing in its text is wild; and whichever names with a point
at their end are those of files, they keep them iff the last segment is one, or nothing is wild. -/
theorem selects_own_route_iff (uri : Uri) (built : uri.IsBuilt)
    (classes : OnlyInGroups '[' uri.text.toList) (escapes : OnlyInGroups '\\' uri.text.toList)
    (p : PathPattern) (accepted : parse uri.text = .ok p) :
    p.covers uri.text = true ∧
      ∀ exclude, (∀ text ∈ exclude, ∃ q, parse text = .ok q) →
        ∃ filter, PathFilter.ofPatterns [uri.text] exclude = .ok filter ∧
          ∀ e : Endpoint, e.uri = uri.text →
            (∀ asks, PathFilter.AnswersBy asks e.uri → filter.keepsBy asks e.uri = true) ∧
            (filter.keeps e.uri = true ↔
              (uri.segments.getLast? = some ".." → IsTame uri.text.toList)) ∧
            ∀ isName, Glob.AcceptsNames isName →
              (filter.keepsBy (Glob.finds isName) e.uri = true ↔
                isName (Glob.lastName (Text.bytes uri.text.toList)) = true ∨
                  IsTame uri.text.toList) := by
  have segment := built.isSegment
  have covered := covers_text_self segment classes escapes accepted
  refine ⟨covered, fun exclude patterns => ?_⟩
  obtain ⟨qs, hqs⟩ := exists_readAs_iff.mpr patterns
  have hps : ReadAs [uri.text] [p] := readAs_cons_iff.mpr ⟨p, [], rfl, accepted, readAs_nil⟩
  refine ⟨_, PathFilter.ofPatterns_eq_ok_iff.mpr ⟨[p], qs, hps, hqs, rfl⟩, fun e he => ?_⟩
  have asked : ∀ isName, PathFilter.keepsBy (Glob.finds isName)
      ⟨[p].flatMap globs, qs.flatMap globs⟩ e.uri = Glob.finds isName p.globs uri.text.toList := by
    intro isName
    have nonempty : p.globs.isEmpty = false :=
      List.isEmpty_eq_false_iff.mpr (globs_ne_nil_of_parse accepted)
    unfold PathFilter.keepsBy
    rw [he, parse_text segment, List.flatMap_singleton, nonempty]
    rfl
  refine ⟨fun asks answers => ?_, ?_, fun isName names => ?_⟩
  · rw [PathFilter.keepsBy_eq hps answers, if_neg (List.cons_ne_nil _ _), he, List.any_cons, covered]
    rfl
  · rw [PathFilter.keeps, asked,
      finds_text_self_iff segment classes escapes accepted Glob.acceptsNames_isFileName,
      Glob.isFileName_lastName_iff segment, or_iff_not_imp_left, not_not]
  · rw [asked, finds_text_self_iff segment classes escapes accepted names]

/-- A route of two paths with stars, groups and a question mark in it, and a bracket in a group. -/
theorem selects_own_wild_route :
    ∃ p filter, parse "/a*b/\x7b[x\x7d?\x7by\x7d/**/v1" = .ok p ∧
      p.covers "/a*b/\x7b[x\x7d?\x7by\x7d/**/v1" = true ∧
      PathFilter.ofPatterns ["/a*b/\x7b[x\x7d?\x7by\x7d/**/v1"] [] = .ok filter ∧
      filter.keeps "/a*b/\x7b[x\x7d?\x7by\x7d/**/v1" = true := by
  obtain ⟨uri, huri⟩ : ∃ uri, uri = (Uri.parse "a*b").add " \x7b[x\x7d?\x7by\x7d//**/v1/" :=
    ⟨_, rfl⟩
  have built : uri.IsBuilt := huri ▸ .add _ (.parse _)
  have text : uri.text = "/a*b/\x7b[x\x7d?\x7by\x7d/**/v1" := by rw [huri]; decide +kernel
  have last : uri.segments.getLast? ≠ some ".." := by rw [huri]; decide +kernel
  have classes : OnlyInGroups '[' uri.text.toList := by
    intro before after h
    have parts : "/a*b/\x7b".toList ++ '[' :: "x\x7d?\x7by\x7d/**/v1".toList =
        before ++ '[' :: after := by
      rw [← h, text]
      decide +kernel
    obtain ⟨rfl, -, rfl⟩ :=
      (List.append_cons_inj_of_notMem (by decide +kernel) (by decide +kernel)).mp parts
    exact ⟨"/a*b/".toList, [], ['x'], "?\x7by\x7d/**/v1".toList, by decide +kernel,
      by decide +kernel, by decide, by decide⟩
  have escapes : OnlyInGroups '\\' uri.text.toList :=
    onlyInGroups_of_notMem (by rw [text]; decide +kernel)
  obtain ⟨p, hp⟩ := Option.isSome_iff_exists.mp
    (by rw [text]; decide +kernel : (parse uri.text).toOption.isSome = true)
  obtain ⟨covered, kept⟩ := selects_own_route_iff uri built classes escapes p (ok_of_toOption hp)
  obtain ⟨filter, made, keeps⟩ := kept [] fun _ h => absurd h List.not_mem_nil
  rw [text] at hp covered made keeps
  obtain ⟨-, here, -⟩ :=
    keeps { Endpoint.new "e" with uri := "/a*b/\x7b[x\x7d?\x7by\x7d/**/v1" } rfl
  exact ⟨p, filter, ok_of_toOption hp, covered, made, here.mpr fun goesUp => absurd goesUp last⟩

/-- A route that goes up behind a group is covered by its text as a pattern, but a filter with this
pattern does not keep it. -/
theorem own_route_not_selected :
    ∃ uri : Uri, uri.IsBuilt ∧ uri.text = "/\x7ba\x7d/.." ∧
      OnlyInGroups '[' uri.text.toList ∧ OnlyInGroups '\\' uri.text.toList ∧
      ∃ p filter, parse uri.text = .ok p ∧ p.covers uri.text = true ∧
        PathFilter.ofPatterns [uri.text] [] = .ok filter ∧ filter.keeps uri.text = false := by
  have text : (Uri.parse "/\x7ba\x7d/..").text = "/\x7ba\x7d/.." := by decide +kernel
  refine ⟨.parse "/\x7ba\x7d/..", .parse _, text, ?_⟩
  rw [text]
  have classes : OnlyInGroups '[' "/\x7ba\x7d/..".toList := onlyInGroups_of_notMem (by decide +kernel)
  have escapes : OnlyInGroups '\\' "/\x7ba\x7d/..".toList :=
    onlyInGroups_of_notMem (by decide +kernel)
  have covered : (parse "/\x7ba\x7d/..").toOption.map (fun p => p.covers "/\x7ba\x7d/..") =
      some true := by decide +kernel
  have left_out : (PathFilter.ofPatterns ["/\x7ba\x7d/.."] []).toOption.map
      (fun filter => filter.keeps "/\x7ba\x7d/..") = some false := by decide +kernel
  obtain ⟨p, hp, hcovers⟩ := Option.map_eq_some_iff.mp covered
  obtain ⟨filter, hfilter, hkeeps⟩ := Option.map_eq_some_iff.mp left_out
  exact ⟨classes, escapes, p, filter, ok_of_toOption hp, hcovers, ok_of_toOption hfilter, hkeeps⟩

end PathPattern
end RouteBook
