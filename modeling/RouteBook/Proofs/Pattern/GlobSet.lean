import Mathlib.Data.List.Basic
import RouteBook.Pattern.GlobSet
import RouteBook.Proofs.Pattern.Accepted
/-! # What a set of globs finds

To look for a glob in a set is to match it, with one exception.  A text is matched by itself alone,
and a text with `/**` behind it by what begins with it, so that the first two ways to look for a glob
are matching in other words.  But a glob that ends in an extension is looked for by the extension of
the path, and a path has none if its last name is not that of a file.  So such a glob is found iff it
matches and the last name counts as that of a file (`finds_searchOf_iff`), and on a path whose last
name does, a set finds what one of its globs matches (`finds_eq_any_of`, `finds_eq_any`).

The last name of a route is its last segment (`lastName_text`), so that this is a matter of segments
that end in a point, and above all of the one that goes up.
-/
namespace RouteBook
namespace Glob

variable {tokens : List Token} {isName : List UInt8 → Bool}

/-! ### The text of a glob -/

theorem text?_eq_some_iff {cs : List Char} : text? tokens = some cs ↔ tokens = cs.map .literal := by
  induction tokens generalizing cs with
  | nil =>
    rw [text?, Option.some.injEq]
    exact ⟨fun h => by rw [← h]; rfl, fun h => (List.map_eq_nil_iff.mp h.symm).symm⟩
  | cons token tokens ih =>
    constructor
    · intro h
      cases token with
      | literal c =>
        obtain ⟨tail, htail, rfl⟩ := Option.map_eq_some_iff.mp h
        rw [ih.mp htail, List.map_cons]
      | _ => cases h
    · intro h
      obtain ⟨c, tail, rfl, rfl, htail⟩ := List.map_eq_cons_iff.mp h.symm
      rw [text?, ih.mpr htail.symm]
      rfl

/-- A text is matched by itself alone. -/
theorem matches_map_literal {cs : List Char} {path : List UInt8} :
    Matches (cs.map .literal) path ↔ path = Text.bytes cs := by
  induction cs generalizing path with
  | nil => exact matches_nil
  | cons c cs ih =>
    rw [List.map_cons, matches_cons, Text.bytes_cons]
    constructor
    · rintro ⟨taken, rest, htaken, hrest, rfl⟩
      rw [ih.mp hrest]
      exact congrArg (· ++ Text.bytes cs) htaken
    · rintro rfl
      exact ⟨_, _, rfl, ih.mpr rfl, rfl⟩

/-- A text with `/**` behind it is matched by what begins with it and a slash. -/
theorem matches_iff_of_front? {cs : List Char} (h : front? tokens = some cs) {path : List UInt8} :
    Matches tokens path ↔ Text.bytes cs <+: path := by
  unfold front? at h
  split at h
  · rename_i last
    obtain ⟨text, htext, rfl⟩ := Option.map_eq_some_iff.mp h
    obtain ⟨front, rfl⟩ := List.getLast?_eq_some_iff.mp last
    rw [List.dropLast_concat, text?_eq_some_iff] at htext
    rw [htext, matches_append, Text.bytes_append]
    constructor
    · rintro ⟨_, _, hfront, ⟨_, _, ⟨rest, rfl⟩, hnil, rfl⟩, rfl⟩
      rw [matches_map_literal.mp hfront, matches_nil.mp hnil]
      exact ⟨rest, by simp [Text.bytes, Text.utf8EncodeChar_slash]⟩
    · rintro ⟨rest, rfl⟩
      refine ⟨_, slash :: rest, matches_map_literal.mpr rfl, ?_, ?_⟩
      · exact ⟨slash :: rest, [], ⟨rest, rfl⟩, rfl, List.append_nil _⟩
      · simp [Text.bytes, Text.utf8EncodeChar_slash]
  · cases h

/-! ### The extension of a glob -/

theorem extensionFrom_eq_some {read ending : List Char}
    (h : extensionFrom read tokens = some ending) :
    ∃ (tail : List Char) (rest : List Token), tokens = tail.map .literal ++ .literal '.' :: rest ∧
      '/' ∉ tail ∧ '.' ∉ tail ∧ ending = '.' :: (tail.reverse ++ read) := by
  induction tokens generalizing read with
  | nil => cases h
  | cons token tokens ih =>
    cases token with
    | literal c =>
      rw [extensionFrom] at h
      split at h
      · cases h
      · rename_i notSlash
        split at h
        · rename_i isPoint
          subst isPoint
          cases h
          exact ⟨[], tokens, rfl, List.not_mem_nil, List.not_mem_nil, rfl⟩
        · rename_i notPoint
          obtain ⟨tail, rest, rfl, slashless, pointless, rfl⟩ := ih h
          refine ⟨c :: tail, rest, rfl, List.not_mem_cons_of_ne_of_not_mem (Ne.symm notSlash)
            slashless, List.not_mem_cons_of_ne_of_not_mem (Ne.symm notPoint) pointless, ?_⟩
          rw [List.reverse_cons, List.append_assoc, List.singleton_append]
    | _ => cases h

/-- **A glob with an extension** ends in the characters of that extension. -/
theorem eq_append_of_extension? {ending : List Char} (h : extension? tokens = some ending) :
    ∃ front tail, tokens = front ++ ('.' :: tail).map .literal ∧ '/' ∉ tail ∧ '.' ∉ tail ∧
      ending = '.' :: tail := by
  obtain ⟨tail, rest, same, slashless, pointless, rfl⟩ := extensionFrom_eq_some h
  refine ⟨rest.reverse, tail.reverse, ?_, by simpa using slashless, by simpa using pointless,
    by rw [List.append_nil]⟩
  rw [← List.reverse_reverse tokens, same]
  simp

/-- A point at the end is an extension too. -/
theorem extension?_concat_point (tokens : List Token) :
    extension? (tokens ++ [.literal '.']) = some ['.'] := by
  rw [extension?, List.reverse_concat]
  rfl

/-! ### The last name of a path -/

theorem behindLast_append {b : UInt8} {back : List UInt8} (h : b ∉ back) (front : List UInt8) :
    behindLast b (front ++ back) = behindLast b front ++ back := by
  have all : ∀ x ∈ back.reverse, (x != b) = true := by
    intro x hx
    rw [bne_iff_ne]
    rintro rfl
    exact h (List.mem_reverse.mp hx)
  rw [behindLast, List.reverse_append, List.takeWhile_append_of_pos all, List.reverse_append,
    List.reverse_reverse]
  rfl

theorem behindLast_concat (b : UInt8) (front : List UInt8) : behindLast b (front ++ [b]) = [] := by
  rw [behindLast, List.reverse_concat, List.takeWhile_cons_of_neg (by simp), List.reverse_nil]

/-- **The extension of a path** that ends in one, if the last name is that of a file. -/
theorem extensionOf?_append {tail : List Char} (slashless : '/' ∉ tail) (pointless : '.' ∉ tail)
    (front : List UInt8) :
    extensionOf? isName (front ++ Text.bytes ('.' :: tail)) =
      if isName (lastName (front ++ Text.bytes ('.' :: tail)))
      then some (Text.bytes ('.' :: tail)) else none := by
  have ending : Text.bytes ('.' :: tail) = point :: Text.bytes tail := rfl
  have inside : slash ∉ point :: Text.bytes tail :=
    List.not_mem_cons_of_ne_of_not_mem (by decide) (Text.slash_notMem_bytes slashless)
  have behind : point ∉ Text.bytes tail := Text.byte_notMem_bytes (d := '.') (by decide) pointless
  have name : lastName (front ++ Text.bytes ('.' :: tail)) =
      (behindLast slash front ++ [point]) ++ Text.bytes tail := by
    rw [ending, lastName, behindLast_append inside, List.append_assoc]
    rfl
  have pointed : (lastName (front ++ Text.bytes ('.' :: tail))).contains point = true := by
    rw [name, List.contains_iff_mem]
    exact List.mem_append_left _ (List.mem_append_right _ List.mem_cons_self)
  have last : behindLast point (lastName (front ++ Text.bytes ('.' :: tail))) =
      Text.bytes tail := by
    rw [name, behindLast_append behind, behindLast_concat, List.nil_append]
  unfold extensionOf?
  dsimp only
  rw [pointed, last, Bool.and_true, ending]

/-! ### Finding a glob -/

/-- A glob that is only looked for on paths with its extension. -/
def NeedsExtension (tokens : List Token) : Prop :=
  text? tokens = none ∧ front? tokens = none ∧ (extension? tokens).isSome = true

/-- **When a glob is found**: it matches, and if it needs an extension, the last name of the path is
that of a file. -/
theorem finds_searchOf_iff {path : List Char} :
    (searchOf tokens).finds isName path = true ↔
      isMatch tokens path = true ∧
        (NeedsExtension tokens → isName (lastName (Text.bytes path)) = true) := by
  unfold searchOf NeedsExtension
  cases whole : text? tokens with
  | some text =>
    rw [isMatch_iff_matches, text?_eq_some_iff.mp whole, matches_map_literal]
    show (Text.bytes text == Text.bytes path) = true ↔ _
    rw [beq_iff_eq, eq_comm]
    exact (and_iff_left fun h => nomatch h.1).symm
  | none =>
    cases front : front? tokens with
    | some text =>
      rw [isMatch_iff_matches, matches_iff_of_front? front, ← List.isPrefixOf_iff_prefix]
      exact (and_iff_left fun h => nomatch h.2.1).symm
    | none =>
      cases ending : extension? tokens with
      | none => exact (and_iff_left fun h => nomatch h.2.2).symm
      | some cs =>
        show (_ && _) = true ↔ _
        rw [Bool.and_eq_true, and_comm]
        refine and_congr_right fun matched => ?_
        -- what matches ends in the extension, so only the last name counts
        obtain ⟨start, tail, rfl, slashless, pointless, rfl⟩ := eq_append_of_extension? ending
        obtain ⟨before, after, -, hafter, same⟩ :=
          matches_append.mp (isMatch_iff_matches.mp matched)
        rw [matches_map_literal.mp hafter] at same
        rw [← same, extensionOf?_append slashless pointless]
        cases isName (lastName (before ++ Text.bytes ('.' :: tail))) <;> simp

/-- **A set finds what one of its globs matches**, as far as those of them that need an extension are
asked about paths whose last name is that of a file. -/
theorem finds_eq_any_of {globs : List (List Token)} {path : List Char}
    (h : ∀ tokens ∈ globs, NeedsExtension tokens → isName (lastName (Text.bytes path)) = true) :
    finds isName globs path = globs.any fun tokens => isMatch tokens path := by
  rw [finds, Bool.eq_iff_iff, List.any_eq_true, List.any_eq_true]
  refine exists_congr fun tokens => and_congr_right fun htokens => ?_
  rw [finds_searchOf_iff]
  exact and_iff_left fun needs => h tokens htokens needs

theorem finds_eq_any {path : List Char} (h : isName (lastName (Text.bytes path)) = true)
    (globs : List (List Token)) :
    finds isName globs path = globs.any fun tokens => isMatch tokens path :=
  finds_eq_any_of fun _ _ _ => h

/-- Apart from names that end in a point, it is the same which last names are those of files. -/
def AcceptsNames (isName : List UInt8 → Bool) : Prop :=
  ∀ name : List UInt8, name.getLast? ≠ some point → isName name = true

theorem acceptsNames_isFileName : AcceptsNames isFileName := by
  intro name last
  rw [isFileName, bne_iff_ne]
  rintro rfl
  exact last rfl

/-! ### The last name of a route -/

theorem bytes_eq_points_iff {cs : List Char} : Text.bytes cs = [point, point] ↔ cs = ['.', '.'] := by
  constructor
  · intro h
    have points : ∀ c ∈ cs, c = '.' := by
      intro c hc
      obtain ⟨b, hb⟩ := List.exists_mem_of_ne_nil _ (String.utf8EncodeChar_ne_nil (c := c))
      have among : b ∈ [point, point] := h ▸ List.mem_flatMap.mpr ⟨c, hc, hb⟩
      obtain rfl : b = point := by simpa using among
      exact Text.eq_of_byte_mem (d := '.') (by decide) hb
    obtain ⟨n, rfl⟩ : ∃ n, cs = List.replicate n '.' :=
      ⟨cs.length, List.eq_replicate_of_mem points⟩
    have small : ∀ c ∈ List.replicate n '.', c.toNat < 128 := by
      intro c hc
      rw [points c hc]
      decide
    have lengths := congrArg List.length h
    rw [Text.bytes_eq_map small, List.length_map, List.length_replicate] at lengths
    rw [show n = 2 from lengths]
    rfl
  · rintro rfl
    rfl

/-- The last byte of a text is that of a point only if its last character is one. -/
theorem getLast?_of_bytes {cs : List Char} (h : (Text.bytes cs).getLast? = some point) :
    cs.getLast? = some '.' := by
  obtain rfl | ⟨front, c, rfl⟩ := List.eq_nil_or_concat' cs
  · cases h
  · rw [Text.bytes_append, Text.bytes_cons, show Text.bytes [] = [] from rfl, List.append_nil,
      List.getLast?_append_of_ne_nil _ String.utf8EncodeChar_ne_nil] at h
    rw [List.getLast?_concat, Text.eq_of_byte_mem (d := '.') (by decide) (List.mem_of_getLast? h)]

/-- The last name of a route is its last segment. -/
theorem lastName_text {uri : Uri} (segment : ∀ s ∈ uri.segments, Uri.IsSegment s) :
    lastName (Text.bytes uri.text.toList) =
      Text.bytes (uri.segments.getLast?.getD "").toList := by
  obtain hroot | ⟨front, s, hsegments⟩ := List.eq_nil_or_concat' uri.segments
  · rw [Uri.text, hroot]
    exact behindLast_concat slash []
  · have hs : slash ∉ Text.bytes s.toList := by
      refine Text.slash_notMem_bytes (segment s ?_).slash_notMem
      rw [hsegments]
      exact List.mem_append_right front List.mem_cons_self
    have ne : uri.segments ≠ [] := by
      rw [hsegments]
      exact List.append_ne_nil_of_right_ne_nil front (List.cons_ne_nil s [])
    rw [Uri.bytes_text ne, Uri.segmentBytes, hsegments, List.map_append, List.map_singleton,
      Uri.flatBytes, List.flatMap_append, List.flatMap_singleton, List.getLast?_concat,
      Option.getD_some, List.append_cons, lastName, behindLast_append hs, behindLast_concat,
      List.nil_append]

/-- The last segment of a route is the name of a file unless it goes up. -/
theorem isFileName_lastName_iff {uri : Uri} (segment : ∀ s ∈ uri.segments, Uri.IsSegment s) :
    isFileName (lastName (Text.bytes uri.text.toList)) = true ↔
      uri.segments.getLast? ≠ some ".." := by
  rw [lastName_text segment, isFileName, bne_iff_ne, ne_eq, bytes_eq_points_iff]
  cases uri.segments.getLast? with
  | none => simp
  | some s =>
    rw [Option.getD_some, ne_eq, Option.some.injEq, ← String.toList_inj]
    rfl

/-- If the last name of a route is not that of a file, it is a segment that ends in a point. -/
theorem exists_point_of_not_isName {uri : Uri} (segment : ∀ s ∈ uri.segments, Uri.IsSegment s)
    (names : AcceptsNames isName)
    (h : ¬ isName (lastName (Text.bytes uri.text.toList)) = true) :
    ∃ last, uri.segments.getLast? = some last ∧ last.toList.getLast? = some '.' := by
  have pointed : (uri.segments.getLast?.getD "").toList.getLast? = some '.' := by
    refine getLast?_of_bytes (Decidable.of_not_not fun other => h ?_)
    rw [lastName_text segment]
    exact names _ other
  cases hlast : uri.segments.getLast? with
  | none =>
    rw [hlast] at pointed
    cases pointed
  | some last =>
    rw [hlast] at pointed
    exact ⟨last, rfl, pointed⟩

end Glob
end RouteBook
