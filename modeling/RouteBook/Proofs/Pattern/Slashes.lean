import RouteBook.Proofs.Pattern.Accepted
/-! # Patterns and the number of segments

A pattern is meant to cover routes with as many segments as it has itself, unless one of them is
`**`.  That is so as long as nothing but a slash of the pattern matches a slash of the route
(`length_eq_of_covers`), and there are three ways to get round that.

* Two groups next to each other become two stars, and if there is nothing else in the segment these
  are `**`, which spans segments.
* A class may cover a slash, and it may also have a slash of the pattern in it.
* The root has no segment, but its text has the slash that any route starts with, and a star may
  match the nothing behind it.
-/
namespace RouteBook

/-- The tokens of a path without `**` have a slash for each segment. -/
theorem Glob.PathReads.count_slash {segments : List (List Char)} {tokens : List Glob.Token}
    (h : Glob.PathReads (.literal '/') segments tokens)
    (shallow : ∀ cs ∈ segments, cs ≠ PathPattern.deep) (hslash : ∀ cs ∈ segments, '/' ∉ cs) :
    (∀ token ∈ tokens, token.isDeep = false) ∧
      tokens.count (.literal '/') = segments.length := by
  generalize hlead : Glob.Token.literal '/' = lead at h
  induction h with
  | nil => exact ⟨fun _ ht => absurd ht List.not_mem_nil, rfl⟩
  | lastDeep => exact absurd rfl (shallow _ List.mem_cons_self)
  | deep => exact absurd rfl (shallow _ List.mem_cons_self)
  | @segment _ cs segments read tokens _ hread _ ih =>
    subst hlead
    have inner := hread.isInner (hslash cs List.mem_cons_self)
    obtain ⟨hshallow, hcount⟩ := ih (fun d hd => shallow d (List.mem_cons_of_mem cs hd))
      (fun d hd => hslash d (List.mem_cons_of_mem cs hd)) rfl
    constructor
    · intro token ht
      rcases List.mem_append.mp ht with ht | ht
      · rcases List.mem_cons.mp ht with rfl | ht
        · rfl
        · exact (inner token ht).2
      · exact hshallow token ht
    · have none : read.count (.literal '/') = 0 :=
        List.count_eq_zero.mpr fun hmem => (inner _ hmem).1 rfl
      rw [List.count_append, List.count_cons_self, none, hcount, List.length_cons]
      omega

namespace PathPattern

/-- Whether no class is left open at the end of a segment. -/
def closesClasses (segment : List Char) : Bool :=
  match Glob.parse (globOf segment) with
  | .error .unclosedClass => false
  | _ => true

theorem closesClasses_globOf {segment : List Char} (h : closesClasses segment = true) :
    Glob.ClosesClasses (globOf segment) := by
  refine ⟨_, [], none, Nat.le_refl _, fun hread => ?_⟩
  unfold closesClasses at h
  rw [show Glob.parse (globOf segment) = .error .unclosedClass from hread] at h
  cases h

/-- Globs of segments have no slashes. -/
theorem slash_notMem_of_mem_map_globOf {cs glob : List Char}
    (h : glob ∈ (segments cs).map globOf) : '/' ∉ glob := by
  obtain ⟨s, hs, rfl⟩ := List.mem_map.mp h
  intro hmem
  rcases mem_of_mem_globOf hmem with he | ⟨hmem, -⟩
  · exact absurd he (by decide)
  · exact slash_notMem_of_mem_segments hs hmem

/-- A route whose text is a single slash is the root. -/
theorem segments_eq_nil_of_bytes {uri : String}
    (h : Text.bytes (Uri.parse uri).text.toList = [Glob.slash]) :
    (Uri.parse uri).segments = [] := by
  refine Classical.byContradiction fun hne => ?_
  rw [Uri.bytes_text hne] at h
  obtain ⟨u, us, hus⟩ : ∃ u us, (Uri.parse uri).segmentBytes = u :: us :=
    List.exists_cons_of_ne_nil fun hnil => hne (List.map_eq_nil_iff.mp hnil)
  have hu : u ∈ (Uri.parse uri).segmentBytes := hus ▸ List.mem_cons_self
  rw [hus, Uri.flatBytes_cons] at h
  exact (Uri.slash_notMem_segmentBytes u hu).1 (List.append_eq_nil_iff.mp (List.cons.inj h).2).1

/-- **A route has as many segments as the pattern that covers it**, provided that no segment of the
pattern becomes `**`, that no class goes beyond its segment or covers a slash, and that the route is
not the root met by a pattern of one segment. -/
theorem length_eq_of_covers (pattern uri : String) (p : PathPattern)
    (accepted : parse pattern = .ok p)
    (shallow : ∀ s ∈ segments (Text.trim pattern.toList), globOf s ≠ deep)
    (closed : ∀ s ∈ segments (Text.trim pattern.toList), closesClasses s = true)
    (slashless : ∀ glob ∈ p.globs, ∀ token ∈ glob, token.coversSlash = false)
    (root : (Uri.parse uri).segments = [] →
      (segments (Text.trim pattern.toList)).length ≠ 1)
    (covered : p.covers uri = true) :
    (Uri.parse uri).segments.length = (segments (Text.trim pattern.toList)).length := by
  obtain ⟨-, hglobs⟩ := accepted_of_parse accepted
  obtain ⟨tokens, hmem, hmatches⟩ := covers_iff.mp covered
  obtain ⟨tokens', hp, -, hparse⟩ | ⟨-, -, -, hlast, -⟩ := hglobs
  · rw [hp, List.mem_singleton] at hmem
    subst hmem
    by_cases hnil : segments (Text.trim pattern.toList) = []
    · -- the pattern is a slash, and so is the text of the route
      rw [hnil] at hparse
      obtain rfl : [Glob.Token.literal '/'] = tokens := Except.ok.inj hparse
      obtain ⟨_, _, rfl, rfl, hbytes⟩ := hmatches
      rw [hnil, segments_eq_nil_of_bytes (hbytes.symm.trans (by decide))]
      rfl
    · have reads := Glob.pathReads_of_parse hparse (fun h => hnil (List.map_eq_nil_iff.mp h))
        (fun _ => slash_notMem_of_mem_map_globOf) fun glob hglob => by
          obtain ⟨s, hs, rfl⟩ := List.mem_map.mp hglob
          exact closesClasses_globOf (closed s hs)
      obtain ⟨hshallow, hcount⟩ := reads.count_slash (fun glob hglob => by
          obtain ⟨s, hs, rfl⟩ := List.mem_map.mp hglob
          exact shallow s hs) fun _ => slash_notMem_of_mem_map_globOf
      have slashes := Glob.count_slash_of_matches hmatches hshallow
        (slashless tokens (hp ▸ List.mem_singleton_self tokens))
      rw [hcount, List.length_map] at slashes
      by_cases hroot : (Uri.parse uri).segments = []
      · rw [show (Uri.parse uri).text = "/" by rw [Uri.text, hroot]] at slashes
        exact absurd slashes.symm (root hroot)
      · rw [Uri.bytes_text hroot, Uri.count_slash_flatBytes fun u hu =>
          (Uri.slash_notMem_segmentBytes u hu).2, Uri.segmentBytes, List.length_map] at slashes
        exact slashes
  · obtain ⟨s, hs, hdeep⟩ := List.mem_map.mp (List.mem_of_getLast? hlast)
    exact absurd hdeep (shallow s hs)

/-- A pattern with a class, a group and a question mark. -/
theorem covers_data_file :
    ∃ p, parse "/v[0-9]/\x7bname\x7d.js?n" = .ok p ∧ p.covers "v1//data.json/" = true ∧
      (Uri.parse "v1//data.json/").segments.length =
        (segments (Text.trim "/v[0-9]/\x7bname\x7d.js?n".toList)).length := by
  obtain ⟨p, accepted, covered, slashless⟩ : ∃ p, parse "/v[0-9]/\x7bname\x7d.js?n" = .ok p ∧
      p.covers "v1//data.json/" = true ∧
      ∀ glob ∈ p.globs, ∀ token ∈ glob, token.coversSlash = false := by
    refine ⟨⟨"/v[0-9]/\x7bname\x7d.js?n", [[.literal '/', .literal 'v', .oneOf false [('0', '9')],
      .literal '/', .anyRun, .literal '.', .literal 'j', .literal 's', .anyOne, .literal 'n']]⟩,
      ok_of_toOption (by decide +kernel), by decide +kernel, by decide +kernel⟩
  exact ⟨p, accepted, covered, length_eq_of_covers _ _ p accepted (by decide +kernel)
    (by decide +kernel) slashless (by decide +kernel) covered⟩

/-- **Two groups next to each other span segments**, although no segment of the pattern is `**`. -/
theorem groups_span_segments :
    ¬ ∀ (pattern uri : String) (p : PathPattern), parse pattern = .ok p →
      deep ∉ segments (Text.trim pattern.toList) → p.covers uri = true →
      (Uri.parse uri).segments.length = (segments (Text.trim pattern.toList)).length := by
  intro h
  have accepted : parse "/\x7ba\x7d\x7bb\x7d" =
      .ok ⟨"/\x7ba\x7d\x7bb\x7d", [[.deepEnd], [.literal '/']]⟩ :=
    ok_of_toOption (by decide +kernel)
  have length := h _ "/x/y" _ accepted (by decide +kernel) (by decide +kernel)
  revert length
  decide +kernel

/-- A class covers a slash of the route. -/
example : ((parse "/a[!x]b").toOption.map fun p => p.covers "/a/b") = some true := by
  decide +kernel

/-- A class has a slash of the pattern in it. -/
example : ((parse "/a[x/]b").toOption.map fun p => p.covers "/axb") = some true := by
  decide +kernel

/-- A star matches the nothing behind the slash of the root. -/
example : ((parse "/*").toOption.map fun p => p.covers "/") = some true := by decide +kernel

end PathPattern
end RouteBook
