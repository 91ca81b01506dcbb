import RouteBook.Http.Uri
import RouteBook.Proofs.Text.Pieces
/-! # Composition of routes

The text of a route reads back as the route, because its segments are trimmed, not empty, and hold
no slash (`segmentsOf_text`).  So it makes no difference whether a path is put behind another one or
behind the text that the other one gives.

Composing lists of paths also leaves out what occurs again.  Leaving it out early loses nothing: the
paths that an element goes on to give are there already when the element comes again
(`foldl_appendNew_flatMap`).  With both, composition is associative, and what comes out of it are
the normal forms of all combinations (`compose_compose_eq`).
-/
namespace RouteBook
namespace Uri

/-! ### Routes and their texts -/

/-- What may stand between two slashes of a route. -/
structure IsSegment (s : String) : Prop where
  ne_nil : s.toList ≠ []
  slash_notMem : '/' ∉ s.toList
  trim_eq : Text.trim s.toList = s.toList

theorem isSegment_of_mem_segmentsOf {path s : String} (h : s ∈ segmentsOf path) : IsSegment s := by
  obtain ⟨cs, hcs, rfl⟩ := List.mem_map.mp h
  obtain ⟨htrim, hne⟩ := List.mem_filter.mp hcs
  obtain ⟨piece, hpiece, rfl⟩ := List.mem_map.mp htrim
  rw [decide_eq_true_iff] at hne
  constructor
  · rwa [String.toList_ofList]
  · rw [String.toList_ofList]
    exact fun hmem => Text.notMem_of_mem_splitAt hpiece (Text.subset_trim piece hmem)
  · rw [String.toList_ofList, Text.trim_trim]

theorem segments_parse (path : String) : (parse path).segments = segmentsOf path :=
  List.nil_append _

theorem toList_text_of_ne_nil {uri : Uri} (h : uri.segments ≠ []) :
    uri.text.toList = (uri.segments.map String.toList).flatMap ('/' :: ·) := by
  obtain ⟨segments⟩ := uri
  cases segments with
  | nil => exact absurd rfl h
  | cons s segments =>
    rw [List.flatMap_map]
    exact String.toList_ofList

/-- The text of a route splits at its slashes into nothing and the segments. -/
theorem splitAt_text {uri : Uri} (hne : uri.segments ≠ [])
    (h : ∀ s ∈ uri.segments, IsSegment s) :
    Text.splitAt '/' uri.text.toList = [] :: uri.segments.map String.toList := by
  rw [toList_text_of_ne_nil hne]
  refine Text.splitAt_flatMap_cons fun p hp => ?_
  obtain ⟨s, hs, rfl⟩ := List.mem_map.mp hp
  exact (h s hs).slash_notMem

/-- Behind its first slash, the text of a route splits into the segments. -/
theorem splitAt_tail_text {uri : Uri} (hne : uri.segments ≠ [])
    (h : ∀ s ∈ uri.segments, IsSegment s) :
    Text.splitAt '/' uri.text.toList.tail = uri.segments.map String.toList := by
  have hsplit := splitAt_text hne h
  obtain ⟨first, rest, hsegments⟩ := List.exists_cons_of_ne_nil hne
  rw [toList_text_of_ne_nil hne, hsegments, List.map_cons, List.flatMap_cons, List.cons_append]
    at hsplit ⊢
  rw [Text.splitAt_cons_self] at hsplit
  exact (List.cons.inj hsplit).2

theorem head?_text (uri : Uri) : uri.text.toList.head? = some '/' := by
  by_cases hne : uri.segments = []
  · obtain ⟨segments⟩ := uri
    subst hne
    rfl
  · obtain ⟨first, rest, hsegments⟩ := List.exists_cons_of_ne_nil hne
    rw [toList_text_of_ne_nil hne, hsegments]
    rfl

/-- The text of a route ends as its last segment does. -/
theorem getLast?_text {uri : Uri} (hne : uri.segments ≠ [])
    (hlast : (uri.segments.getLast hne).toList ≠ []) :
    uri.text.toList.getLast? = (uri.segments.getLast hne).toList.getLast? := by
  have front : uri.text.toList =
      ((uri.segments.dropLast ++ [uri.segments.getLast hne]).map String.toList).flatMap
        ('/' :: ·) := by
    rw [List.dropLast_concat_getLast, toList_text_of_ne_nil hne]
  rw [front, List.map_append, List.flatMap_append, List.map_singleton, List.flatMap_singleton,
    List.getLast?_append, List.getLast?_cons, List.getLast?_eq_some_getLast hlast]
  rfl

/-- So it does not end with a slash. -/
theorem getLast?_text_ne {uri : Uri} (hne : uri.segments ≠ [])
    (h : ∀ s ∈ uri.segments, IsSegment s) : uri.text.toList.getLast? ≠ some '/' := by
  have hlast := h _ (List.getLast_mem hne)
  rw [getLast?_text hne hlast.ne_nil]
  exact fun he => hlast.slash_notMem (List.mem_of_getLast? he)

/-- Nor are there blanks around it: before its first segment stands a slash, and its last one is
trimmed. -/
theorem trim_text {uri : Uri} (h : ∀ s ∈ uri.segments, IsSegment s) :
    Text.trim uri.text.toList = uri.text.toList := by
  apply Text.trim_eq_self
  · intro c hc
    rw [head?_text] at hc
    cases hc
    decide
  · intro c hc
    by_cases hne : uri.segments = []
    · rw [text, hne] at hc
      cases hc
      decide
    · have hlast := h _ (List.getLast_mem hne)
      rw [getLast?_text hne hlast.ne_nil, ← hlast.trim_eq] at hc
      exact Text.isBlank_getLast_trim _ c hc

theorem filter_ne_nil_segments {uri : Uri} (h : ∀ s ∈ uri.segments, IsSegment s) :
    (uri.segments.map String.toList).filter (· ≠ []) = uri.segments.map String.toList := by
  apply List.filter_eq_self.mpr
  intro cs hcs
  obtain ⟨s, hs, rfl⟩ := List.mem_map.mp hcs
  exact decide_eq_true (h s hs).ne_nil

/-- **The text of a route reads back as the route.** -/
theorem segmentsOf_text {uri : Uri} (h : ∀ s ∈ uri.segments, IsSegment s) :
    segmentsOf uri.text = uri.segments := by
  by_cases hne : uri.segments = []
  · obtain ⟨segments⟩ := uri
    subst hne
    rfl
  · have trimmed : (uri.segments.map String.toList).map Text.trim =
        uri.segments.map String.toList := by
      rw [List.map_map]
      exact List.map_congr_left fun s hs => (h s hs).trim_eq
    have strings : (uri.segments.map String.toList).map String.ofList = uri.segments := by
      rw [List.map_map]
      exact (List.map_congr_left fun s _ => String.ofList_toList).trans (List.map_id _)
    unfold segmentsOf
    rw [splitAt_text hne h, List.map_cons, trimmed, List.filter_cons, filter_ne_nil_segments h]
    exact strings

/-- Paths with a slash between them have the segments of the one and then those of the other. -/
theorem segmentsOf_append_slash (a b : String) :
    segmentsOf (a ++ "/" ++ b) = segmentsOf a ++ segmentsOf b := by
  have slash : (a ++ "/" ++ b).toList = a.toList ++ '/' :: b.toList := by
    rw [String.toList_append, String.toList_append, List.append_assoc]
    rfl
  unfold segmentsOf
  rw [slash, Text.splitAt_append_cons, List.map_append, List.filter_append, List.map_append]

/-- The text of the route that goes along several paths, one after another. -/
def along (paths : List String) : String := (Uri.mk (paths.flatMap segmentsOf)).text

theorem text_parse (path : String) : (parse path).text = along [path] := by
  rw [along, List.flatMap_cons, List.flatMap_nil, List.append_nil]
  rfl

theorem text_parse_add (parent fragment : String) :
    ((parse parent).add fragment).text = along [parent, fragment] := by
  rw [along, List.flatMap_cons, List.flatMap_cons, List.flatMap_nil, List.append_nil]
  rfl

theorem isSegment_of_mem_flatMap {paths : List String} {s : String}
    (h : s ∈ paths.flatMap segmentsOf) : IsSegment s := by
  obtain ⟨path, -, hs⟩ := List.mem_flatMap.mp h
  exact isSegment_of_mem_segmentsOf hs

theorem segmentsOf_along (paths : List String) :
    segmentsOf (along paths) = paths.flatMap segmentsOf :=
  segmentsOf_text fun _ hs => isSegment_of_mem_flatMap hs

/-- A route may go along the text of another route in place of its paths. -/
theorem along_append_along_append (front paths back : List String) :
    along (front ++ along paths :: back) = along (front ++ paths ++ back) := by
  have same : (front ++ along paths :: back).flatMap segmentsOf =
      (front ++ paths ++ back).flatMap segmentsOf := by
    rw [List.flatMap_append, List.flatMap_cons, segmentsOf_along, List.flatMap_append,
      List.flatMap_append, List.append_assoc]
  exact congrArg (fun segments => (Uri.mk segments).text) same

/-! ### Normal forms -/

/-- **A text in normal form**: a slash before every segment, no segment empty or with blanks around
it, and so no slash at the end unless there is nothing else. -/
structure IsNormal (text : String) : Prop where
  head : text.toList.head? = some '/'
  last : text = "/" ∨ text.toList.getLast? ≠ some '/'
  segments : text = "/" ∨ ∀ cs ∈ Text.splitAt '/' text.toList.tail, cs ≠ [] ∧ Text.trim cs = cs
  parse_text : (parse text).text = text

theorem isNormal_along (paths : List String) : IsNormal (along paths) := by
  have again : (parse (along paths)).text = along paths := by
    rw [text_parse]
    exact along_append_along_append [] paths [] |>.trans (by rw [List.nil_append, List.append_nil])
  obtain ⟨uri, htext, segment⟩ : ∃ uri : Uri, along paths = uri.text ∧
      ∀ s ∈ uri.segments, IsSegment s := ⟨_, rfl, fun _ => isSegment_of_mem_flatMap⟩
  rw [htext] at again ⊢
  by_cases hroot : uri.segments = []
  · have hslash : uri.text = "/" := by rw [text, hroot]
    exact ⟨head?_text uri, .inl hslash, .inl hslash, again⟩
  · refine ⟨head?_text uri, .inr (getLast?_text_ne hroot segment), .inr fun cs hcs => ?_, again⟩
    rw [splitAt_tail_text hroot segment] at hcs
    obtain ⟨s, hs, rfl⟩ := List.mem_map.mp hcs
    exact ⟨(segment s hs).ne_nil, (segment s hs).trim_eq⟩

/-! ### Leaving out what occurs again -/

theorem appendNew_of_mem {seen : List String} {s : String} (h : s ∈ seen) :
    appendNew seen s = seen := if_pos h

theorem appendNew_of_notMem {seen : List String} {s : String} (h : s ∉ seen) :
    appendNew seen s = seen ++ [s] := if_neg h

theorem mem_appendNew {seen : List String} {s a : String} :
    a ∈ appendNew seen s ↔ a ∈ seen ∨ a = s := by
  by_cases h : s ∈ seen
  · rw [appendNew_of_mem h]
    exact ⟨.inl, fun ha => ha.elim id fun he => he ▸ h⟩
  · rw [appendNew_of_notMem h, List.mem_append, List.mem_singleton]

theorem mem_foldl_appendNew {seen texts : List String} {a : String} :
    a ∈ texts.foldl appendNew seen ↔ a ∈ seen ∨ a ∈ texts := by
  induction texts generalizing seen with
  | nil => simp
  | cons s texts ih => rw [List.foldl_cons, ih, mem_appendNew, List.mem_cons, or_assoc]

/-- What is there already adds nothing. -/
theorem foldl_appendNew_of_subset {seen texts : List String} (h : texts ⊆ seen) :
    texts.foldl appendNew seen = seen := by
  induction texts with
  | nil => rfl
  | cons s texts ih =>
    obtain ⟨hs, htexts⟩ := List.cons_subset.mp h
    rw [List.foldl_cons, appendNew_of_mem hs, ih htexts]

/-- The later of two equal texts is left out. -/
theorem foldl_appendNew_eq_append (seen texts : List String) :
    texts.foldl appendNew seen = seen ++ (texts.filter (· ∉ seen)).eraseDups := by
  induction texts generalizing seen with
  | nil => simp
  | cons s texts ih =>
    rw [List.foldl_cons, ih]
    by_cases h : s ∈ seen
    · rw [appendNew_of_mem h, List.filter_cons_of_neg (by simpa using h)]
    · -- `s` comes next, and leaves its other occurrences out
      have rest : (texts.filter (· ∉ seen ++ [s])) =
          (texts.filter (· ∉ seen)).filter fun b => !b == s := by
        rw [List.filter_filter]
        refine List.filter_congr fun b _ => ?_
        by_cases hb : b = s <;> simp [hb]
      rw [appendNew_of_notMem h, rest, List.filter_cons_of_pos (by simpa using h),
        List.eraseDups_cons, List.append_assoc, List.singleton_append]

theorem foldl_appendNew_eq_eraseDups (texts : List String) :
    texts.foldl appendNew [] = texts.eraseDups := by
  have all : texts.filter (· ∉ ([] : List String)) = texts :=
    List.filter_eq_self.mpr fun _ _ => decide_eq_true List.not_mem_nil
  rw [foldl_appendNew_eq_append, all, List.nil_append]

theorem nodup_foldl_appendNew {seen texts : List String} (h : seen.Nodup) :
    (texts.foldl appendNew seen).Nodup := by
  induction texts generalizing seen with
  | nil => exact h
  | cons s texts ih =>
    refine ih ?_
    by_cases hs : s ∈ seen
    · rwa [appendNew_of_mem hs]
    · rw [appendNew_of_notMem hs]
      refine List.nodup_append.mpr ⟨h, List.pairwise_singleton _ _, ?_⟩
      intro a ha b hb he
      exact hs (List.mem_singleton.mp hb ▸ he ▸ ha)

/-- **Leaving texts out early loses nothing** of what they go on to give. -/
theorem foldl_appendNew_flatMap (f : String → List String) (seen done texts : List String) :
    ((texts.foldl appendNew done).flatMap f).foldl appendNew seen =
      ((done ++ texts).flatMap f).foldl appendNew seen := by
  induction texts generalizing done with
  | nil => rw [List.foldl_nil, List.append_nil]
  | cons s texts ih =>
    rw [List.foldl_cons, ih]
    by_cases h : s ∈ done
    · -- all that `s` gives has come with its first occurrence
      have known : f s ⊆ (done.flatMap f).foldl appendNew seen := fun a ha =>
        mem_foldl_appendNew.mpr (.inr (List.mem_flatMap.mpr ⟨s, h, ha⟩))
      rw [appendNew_of_mem h, List.flatMap_append, List.flatMap_append, List.flatMap_cons,
        List.foldl_append, List.foldl_append, List.foldl_append, foldl_appendNew_of_subset known]
    · rw [appendNew_of_notMem h, List.append_assoc, List.singleton_append]

/-! ### Composition -/

theorem orEmptyPath_of_ne_nil {paths : List String} (h : paths ≠ []) : orEmptyPath paths = paths :=
  if_neg (by rwa [List.isEmpty_iff])

theorem orEmptyPath_eq_cons (paths : List String) :
    orEmptyPath paths = paths.headD "" :: paths.tail := by
  cases paths with
  | nil => rfl
  | cons path paths => rfl

theorem orEmptyPath_ne_nil (paths : List String) : orEmptyPath paths ≠ [] := by
  rw [orEmptyPath_eq_cons]
  exact List.cons_ne_nil _ _

/-- Composition as leaving out what occurs again among all combinations. -/
theorem compose_eq (parents fragments : List String) :
    compose parents fragments =
      ((orEmptyPath parents).flatMap fun parent =>
        (orEmptyPath fragments).map fun fragment => along [parent, fragment]).foldl
          appendNew [] := by
  unfold compose
  simp only [text_parse_add]

theorem mem_compose {parents fragments : List String} {u : String} :
    u ∈ compose parents fragments ↔
      ∃ parent ∈ orEmptyPath parents, ∃ fragment ∈ orEmptyPath fragments,
        along [parent, fragment] = u := by
  rw [compose_eq, mem_foldl_appendNew, List.mem_flatMap]
  simp only [List.not_mem_nil, false_or, List.mem_map]

theorem nodup_compose (parents fragments : List String) : (compose parents fragments).Nodup :=
  nodup_foldl_appendNew List.nodup_nil

theorem compose_ne_nil (parents fragments : List String) : compose parents fragments ≠ [] := by
  obtain ⟨parent, hparent⟩ := List.exists_mem_of_ne_nil _ (orEmptyPath_ne_nil parents)
  obtain ⟨fragment, hfragment⟩ := List.exists_mem_of_ne_nil _ (orEmptyPath_ne_nil fragments)
  exact List.ne_nil_of_mem (mem_compose.mpr ⟨parent, hparent, fragment, hfragment, rfl⟩)

/-- The first route goes along the first parent and the first fragment. -/
theorem head?_compose (parents fragments : List String) :
    (compose parents fragments).head? = some (along [parents.headD "", fragments.headD ""]) := by
  rw [compose_eq, orEmptyPath_eq_cons parents, orEmptyPath_eq_cons fragments, List.flatMap_cons,
    List.map_cons, List.cons_append, List.foldl_cons, foldl_appendNew_eq_append]
  rfl

/-- All combinations of a base, a class path and a method path, class path by class path. -/
def combinations (base : String) (classPaths methodPaths : List String) : List String :=
  (orEmptyPath classPaths).flatMap fun c =>
    (orEmptyPath methodPaths).map fun m => along [base, c, m]

theorem compose_compose_left (base : String) (classPaths methodPaths : List String) :
    compose (compose [base] classPaths) methodPaths =
      (combinations base classPaths methodPaths).foldl appendNew [] := by
  have step : ∀ c m, along [along [base, c], m] = along [base, c, m] := fun c m =>
    along_append_along_append [] [base, c] [m]
  rw [compose_eq, orEmptyPath_of_ne_nil (compose_ne_nil _ _), compose_eq [base] classPaths,
    foldl_appendNew_flatMap, List.nil_append, orEmptyPath_of_ne_nil (List.cons_ne_nil base []),
    List.flatMap_cons, List.flatMap_nil, List.append_nil, List.flatMap_map]
  simp only [step]
  rfl

theorem compose_compose_right (base : String) (classPaths methodPaths : List String) :
    compose [base] (compose classPaths methodPaths) =
      (combinations base classPaths methodPaths).foldl appendNew [] := by
  have step : ∀ c m, along [base, along [c, m]] = along [base, c, m] := fun c m =>
    along_append_along_append [base] [c, m] []
  rw [compose_eq, orEmptyPath_of_ne_nil (compose_ne_nil _ _), compose_eq classPaths methodPaths,
    orEmptyPath_of_ne_nil (List.cons_ne_nil base []), List.flatMap_cons, List.flatMap_nil,
    List.append_nil, List.map_eq_flatMap, foldl_appendNew_flatMap, List.nil_append,
    ← List.map_eq_flatMap, List.map_flatMap]
  simp only [List.map_map, Function.comp_def, step]
  rfl

/-- **Composition end to end.**  The routes of a handler are the normal forms of the base, a class
path and a method path with slashes between them, class path by class path and without those that
occur again.  Either of the two compositions may come first. -/
theorem compose_compose_eq (base : String) (classPaths methodPaths : List String) :
    compose (compose [base] classPaths) methodPaths =
        ((orEmptyPath classPaths).flatMap fun c => (orEmptyPath methodPaths).map fun m =>
          (parse (base ++ "/" ++ c ++ "/" ++ m)).text).eraseDups ∧
      compose [base] (compose classPaths methodPaths) =
        compose (compose [base] classPaths) methodPaths ∧
      (∀ u ∈ compose (compose [base] classPaths) methodPaths, IsNormal u) ∧
      (compose (compose [base] classPaths) methodPaths).Nodup := by
  have normalForm : ∀ c m, (parse (base ++ "/" ++ c ++ "/" ++ m)).text = along [base, c, m] := by
    intro c m
    rw [text_parse]
    unfold along
    simp only [List.flatMap_cons, List.flatMap_nil, segmentsOf_append_slash, List.append_assoc]
  refine ⟨?_, ?_, ?_, nodup_compose _ _⟩
  · simp only [normalForm]
    rw [compose_compose_left, foldl_appendNew_eq_eraseDups]
    rfl
  · rw [compose_compose_left, compose_compose_right]
  · intro u hu
    obtain ⟨parent, -, fragment, -, rfl⟩ := mem_compose.mp hu
    exact isNormal_along _

/-- A class path that repeats, with blanks and slashes around it, gives no route twice. -/
example : compose (compose ["/api/"] [" users ", "/users"]) ["", "/\x7bid\x7d"] =
    ["/api/users", "/api/users/\x7bid\x7d"] := by decide +kernel

end Uri
end RouteBook
