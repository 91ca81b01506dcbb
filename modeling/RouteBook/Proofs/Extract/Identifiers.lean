import Mathlib.Data.List.Nodup
import Mathlib.Data.List.Pairwise
import RouteBook.Proofs.Extract.Chapter
import RouteBook.Proofs.Spring.Heading
/-! # Identifiers within a chapter

The first endpoint of a handler goes by the name of the handler, and those for further routes by the
name and the number of the route behind an underscore.  A number holds no underscore, so the name
can be read off such an identifier (`numbered_inj`), and two numbered ones agree only if they belong
to one handler and one route.

What is left are handlers that have the numbered name of another one as their own name.  Nobody looks
for them: with two routes for `list`, and a handler `list_2` beside it, there are two endpoints
`list_2` in the chapter (`ids_clash`).  Apart from that, handlers of different names never share an
identifier (`nodup_ids_chapter_iff`).
-/
namespace RouteBook

/-! ### Numbered names -/

namespace Spring

theorem routeId_succ (id : String) (i : Nat) :
    routeId id (i + 1) = id ++ "_" ++ toString (i + 2) := rfl

theorem underscore_notMem_toString (n : Nat) : '_' ∉ (toString n).toList := by
  intro h
  rw [Nat.toString_eq_repr, Nat.toList_repr] at h
  have digit := Nat.isDigit_of_mem_toDigits (by decide) (by decide) h
  exact absurd digit (by decide)

theorem toString_nat_inj {n m : Nat} (h : toString n = toString m) : n = m := by
  have digits := congrArg (fun s => Nat.ofDigitChars 10 s.toList 0) h
  rw [Nat.toString_eq_repr, Nat.toString_eq_repr, Nat.toList_repr, Nat.toList_repr,
    Nat.ofDigitChars_toDigits (by decide) (by decide),
    Nat.ofDigitChars_toDigits (by decide) (by decide)] at digits
  exact digits

/-- The pieces of a numbered name are those of the name and the number. -/
theorem splitAt_numbered (id : String) (n : Nat) :
    Text.splitAt '_' (id ++ "_" ++ toString n).toList =
      Text.splitAt '_' id.toList ++ [(toString n).toList] := by
  have list : (id ++ "_" ++ toString n).toList = id.toList ++ '_' :: (toString n).toList := by
    rw [String.toList_append, String.toList_append, List.append_assoc]
    rfl
  rw [list, Text.splitAt_append_cons, Text.splitAt_eq_singleton (underscore_notMem_toString n)]

/-- **Name and number can be read off a numbered name.** -/
theorem numbered_inj {a b : String} {n m : Nat}
    (h : a ++ "_" ++ toString n = b ++ "_" ++ toString m) : a = b ∧ n = m := by
  have pieces := congrArg (fun s => Text.splitAt '_' s.toList) h
  rw [splitAt_numbered, splitAt_numbered] at pieces
  obtain ⟨names, numbers⟩ := List.append_inj' pieces rfl
  have joined := congrArg (Text.joinWith ['_']) names
  rw [Text.joinWith_splitAt, Text.joinWith_splitAt] at joined
  exact ⟨String.toList_inj.mp joined, toString_nat_inj (String.toList_inj.mp (List.cons.inj numbers).1)⟩

/-- A numbered name is longer than the name. -/
theorem numbered_ne_self (a : String) (n : Nat) : a ++ "_" ++ toString n ≠ a := by
  intro h
  have pieces := congrArg (fun s => (Text.splitAt '_' s.toList).length) h
  rw [splitAt_numbered, List.length_append, List.length_singleton] at pieces
  omega

theorem routeId_injective (id : String) : Function.Injective (routeId id) := by
  intro i j h
  cases i with
  | zero =>
    cases j with
    | zero => rfl
    | succ j => exact absurd h.symm (numbered_ne_self id (j + 2))
  | succ i =>
    cases j with
    | zero => exact absurd h (numbered_ne_self id (i + 2))
    | succ j =>
      obtain ⟨-, number⟩ := numbered_inj h
      omega

/-- Identifiers of handlers with different names agree only if the one that is not numbered is the
other one with its number. -/
theorem name_eq_of_routeId_eq {a b : String} (hne : a ≠ b) {i j : Nat}
    (h : routeId a i = routeId b j) :
    (i = 0 ∧ 0 < j ∧ a = b ++ "_" ++ toString (j + 1)) ∨
      (j = 0 ∧ 0 < i ∧ b = a ++ "_" ++ toString (i + 1)) := by
  cases i with
  | zero =>
    cases j with
    | zero => exact absurd h hne
    | succ j => exact .inl ⟨rfl, Nat.succ_pos j, h⟩
  | succ i =>
    cases j with
    | zero => exact .inr ⟨rfl, Nat.succ_pos i, h.symm⟩
    | succ j => exact absurd (numbered_inj h).1 hne

theorem map_id_perRoute (e : Endpoint) (uris : List String) :
    (perRoute e uris).map Endpoint.id = (List.range uris.length).map (routeId e.id) := by
  calc (perRoute e uris).map Endpoint.id
      = uris.zipIdx.map (routeId e.id ∘ Prod.snd) := List.map_map
    _ = (uris.zipIdx.map Prod.snd).map (routeId e.id) := List.map_map.symm
    _ = (List.range uris.length).map (routeId e.id) := by
      rw [List.zipIdx_map_snd, List.range_eq_range']

end Spring

namespace Extract

/-! ### The identifiers of a chapter -/

/-- The identifiers of a documented handler. -/
def idsOf (uris : List String) (h : Handler) : List String :=
  (List.range (Uri.compose uris (Spring.paths h.markers)).length).map (Spring.routeId h.name)

theorem map_id_endpointsOf? {types : Types} {uris : List String} {h : Handler}
    {es : List Endpoint} (ok : endpointsOf? Spring.dialect types uris h = some es) :
    es.map Endpoint.id = idsOf uris h := by
  obtain ⟨e', said, rfl⟩ := Spring.value_endpoints_eq_ok_iff.mp (ok_of_toOption ok)
  rw [Spring.map_id_perRoute, (Spring.keepsHeading_documented said).id]
  rfl

/-- The handlers of a controller that have endpoints. -/
def documentedHandlers (types : Types) (uris : List String) (c : Controller) : List Handler :=
  (c.handlers.filter (Spring.isHandler c)).filter fun h =>
    (endpointsOf? Spring.dialect types uris h).isSome

theorem map_id_chapter (types : Types) (urlPrefix : String) (c : Controller) :
    (chapter Spring.dialect types urlPrefix c).value.endpoints.map Endpoint.id =
      (documentedHandlers types (baseUris Spring.dialect urlPrefix c) c).flatMap
        (idsOf (baseUris Spring.dialect urlPrefix c)) := by
  rw [endpoints_chapter]
  unfold documentedHandlers
  generalize baseUris Spring.dialect urlPrefix c = uris
  -- the dialect's own test is spelled out, so that both sides go through one list
  show List.map _ (List.filterMap _ (c.handlers.filter (Spring.isHandler c))).flatten = _
  induction c.handlers.filter (Spring.isHandler c) with
  | nil => rfl
  | cons h hs ih =>
    rw [List.filterMap_cons, List.filter_cons]
    cases ok : endpointsOf? Spring.dialect types uris h with
    | none => exact ih
    | some es =>
      rw [List.flatten_cons, List.map_append, map_id_endpointsOf? ok, ih]
      exact List.flatMap_cons.symm

theorem nodup_idsOf (uris : List String) (h : Handler) : (idsOf uris h).Nodup :=
  List.nodup_range.map (Spring.routeId_injective h.name)

theorem mem_idsOf {uris : List String} {h : Handler} {id : String} :
    id ∈ idsOf uris h ↔
      ∃ i < (Uri.compose uris (Spring.paths h.markers)).length, Spring.routeId h.name i = id := by
  unfold idsOf
  simp only [List.mem_map, List.mem_range]

/-- Every handler has a route, and so its name is one of its identifiers. -/
theorem name_mem_idsOf (uris : List String) (h : Handler) : h.name ∈ idsOf uris h :=
  mem_idsOf.mpr ⟨0, List.length_pos_of_ne_nil (Uri.compose_ne_nil _ _), rfl⟩

/-- **When identifiers identify the endpoints of a chapter**: iff no documented handler has for its
name the name of another one with the number of one of its further routes. -/
theorem nodup_ids_chapter_iff (types : Types) (urlPrefix : String) (c : Controller)
    (names : (c.handlers.map Handler.name).Nodup) :
    ((chapter Spring.dialect types urlPrefix c).value.endpoints.map Endpoint.id).Nodup ↔
      ∀ h ∈ documentedHandlers types (baseUris Spring.dialect urlPrefix c) c,
      ∀ h' ∈ documentedHandlers types (baseUris Spring.dialect urlPrefix c) c,
      ∀ n, 2 ≤ n →
        n ≤ (Uri.compose (baseUris Spring.dialect urlPrefix c) (Spring.paths h.markers)).length →
        h'.name ≠ h.name ++ "_" ++ toString n := by
  rw [map_id_chapter, List.nodup_flatMap]
  generalize baseUris Spring.dialect urlPrefix c = uris
  have documented : ((documentedHandlers types uris c).map Handler.name).Nodup :=
    names.sublist ((List.filter_sublist.trans List.filter_sublist).map Handler.name)
  constructor
  -- the name of `h'` is its own identifier, and would be one of `h` too
  · rintro ⟨-, apart⟩ h hh h' hh' n two_le le clash
    have symm : Std.Symm (Function.onFun List.Disjoint (idsOf uris)) :=
      ⟨fun _ _ disjoint => List.disjoint_symm disjoint⟩
    have other : h' ≠ h := by
      rintro rfl
      exact Spring.numbered_ne_self _ _ clash.symm
    refine apart.forall hh' hh other (name_mem_idsOf uris h') (mem_idsOf.mpr ⟨n - 1, by omega, ?_⟩)
    obtain ⟨i, rfl⟩ := Nat.exists_eq_add_of_le' two_le
    exact (Spring.routeId_succ h.name i).trans clash.symm
  -- an identifier of both handlers is numbered for one of them and the name of the other
  · intro free
    refine ⟨fun h _ => nodup_idsOf uris h, documented.of_map.pairwise_of_forall_ne ?_⟩
    intro h hh h' hh' other id hid hid'
    obtain ⟨i, hi, rfl⟩ := mem_idsOf.mp hid
    obtain ⟨j, hj, same⟩ := mem_idsOf.mp hid'
    have otherName : h.name ≠ h'.name := fun he =>
      other (List.inj_on_of_nodup_map documented hh hh' he)
    obtain ⟨-, numbered, clash⟩ | ⟨-, numbered, clash⟩ :=
      Spring.name_eq_of_routeId_eq otherName same.symm
    · exact free h' hh' h hh (j + 1) (by omega) (by omega) clash
    · exact free h hh h' hh' (i + 1) (by omega) (by omega) clash

/-- Two handlers with two routes between them and names that are no numbered ones. -/
theorem nodup_ids_items :
    ((chapter Spring.dialect Spring.itemTypes ""
      (items [Spring.listItems, Spring.updateItem "key"])).value.endpoints.map
        Endpoint.id).Nodup := by
  refine (nodup_ids_chapter_iff Spring.itemTypes "" _ (by decide)).mpr ?_
  intro h _ h' hh' n _ _ clash
  -- neither name has an underscore in it
  have plain : '_' ∉ h'.name.toList := by
    rcases List.mem_pair.mp (List.mem_of_mem_filter (List.mem_of_mem_filter hh')) with rfl | rfl
    · decide
    · decide
  rw [clash, String.toList_append, String.toList_append, List.append_assoc] at plain
  exact plain (List.mem_append_right _ List.mem_cons_self)

/-- **Identifiers may clash**: a handler with two routes, and another one that goes by the name of the
second of them. -/
theorem ids_clash :
    ¬ ∀ (types : Types) (urlPrefix : String) (c : Controller), Spring.isController c = true →
      (c.handlers.map Handler.name).Nodup →
      ((chapter Spring.dialect types urlPrefix c).value.endpoints.map Endpoint.id).Nodup := by
  intro distinct
  have clash := distinct Spring.itemTypes ""
    (items [Spring.listItems, { Spring.updateItem "key" with name := "list_2" }])
    (by decide) (by decide)
  revert clash
  decide +kernel

end Extract
end RouteBook
