import RouteBook.Proofs.Http.Compose
import RouteBook.Proofs.Spring.RequestRows
/-! # Handlers with several routes

A handler is documented once, and its routes share what is documented: only the identifier and the
route itself differ (`SameButRoute`).  What is documented does not depend on the routes either.  A
handler whose mapping names only the first of its paths (`firstPathOnly`) starts from the same first
route, and is documented in the same way (`documented_firstPathOnly`).
-/
namespace RouteBook

/-! ### Markers with one path -/

namespace MarkerValue

/-- A list of values cut down to the first of those that have a text. -/
def firstText : MarkerValue → MarkerValue
  | .list items => .list ((items.filter fun v => v.text?.isSome).take 1)
  | v => v

/-- The texts of the values that have one. -/
theorem filterMap_text?_take (items : List MarkerValue) (n : Nat) :
    ((items.filter fun v => v.text?.isSome).take n).filterMap text? =
      (items.filterMap text?).take n := by
  induction items generalizing n with
  | nil => simp
  | cons v items ih =>
    cases hv : v.text? with
    | none =>
      rw [List.filter_cons_of_neg (by simp [hv]), ih, List.filterMap_cons_none hv]
    | some s =>
      rw [List.filter_cons_of_pos (by simp [hv]), List.filterMap_cons_some hv]
      cases n with
      | zero => rfl
      | succ n => rw [List.take_succ_cons, List.take_succ_cons, List.filterMap_cons_some hv, ih]

theorem texts_firstText (v : MarkerValue) : v.firstText.texts = v.texts.take 1 := by
  cases v with
  | list items => exact filterMap_text?_take items 1
  -- a value that is no list has one text at most
  | _ => rfl

theorem isSupported_firstText (v : MarkerValue) : v.firstText.isSupported = v.isSupported := by
  cases v <;> rfl

end MarkerValue

namespace Marker

/-- The marker with the values of some of its arguments cut down to the first. -/
def firstOf (keys : List String) (m : Marker) : Marker :=
  { m with args := m.args.map fun (key, v) => (key, if key ∈ keys then v.firstText else v) }

theorem lookup_args_firstOf (keys : List String) (m : Marker) (key : String) :
    (m.firstOf keys).args.lookup key =
      (m.args.lookup key).map fun v => if key ∈ keys then v.firstText else v := by
  obtain ⟨name, args⟩ := m
  unfold firstOf
  dsimp only
  induction args with
  | nil => rfl
  | cons arg args ih =>
    obtain ⟨k, v⟩ := arg
    rw [List.map_cons, List.lookup_cons, List.lookup_cons, ih]
    cases hk : key == k with
    | false => rfl
    | true =>
      rw [beq_iff_eq.mp hk]
      rfl

/-- Other arguments are left alone. -/
theorem texts_firstOf_of_disjoint {keys others : List String} (h : ∀ key ∈ others, key ∉ keys)
    (m : Marker) : (m.firstOf keys).texts others = m.texts others := by
  have same : (m.firstOf keys).arg? others = m.arg? others := by
    induction others with
    | nil => rfl
    | cons key others ih =>
      have hkey : (m.firstOf keys).args.lookup key = m.args.lookup key := by
        rw [lookup_args_firstOf]
        simp [h key List.mem_cons_self]
      have rest := ih fun other hother => h other (List.mem_cons_of_mem key hother)
      unfold arg? at rest ⊢
      rw [List.findSome?_cons, List.findSome?_cons, hkey, rest]
  rw [texts, texts, same]

/-- Of the arguments themselves the first text is left. -/
theorem texts_firstOf (keys : List String) (m : Marker) :
    (m.firstOf keys).texts keys = (m.texts keys).take 1 := by
  have first : ∀ part ⊆ keys, (m.firstOf keys).arg? part = (m.arg? part).map (·.firstText) := by
    intro part hpart
    induction part with
    | nil => rfl
    | cons key part ih =>
      obtain ⟨hkey, hrest⟩ := List.cons_subset.mp hpart
      have hlookup : ((m.firstOf keys).args.lookup key).filter MarkerValue.isSupported =
          ((m.args.lookup key).filter MarkerValue.isSupported).map (·.firstText) := by
        rw [lookup_args_firstOf]
        cases m.args.lookup key with
        | none => rfl
        | some v =>
          simp only [if_pos hkey, Option.map_some, Option.filter_some,
            MarkerValue.isSupported_firstText]
          split <;> rfl
      have rest := ih hrest
      unfold arg? at rest ⊢
      rw [List.findSome?_cons, List.findSome?_cons, hlookup, rest]
      cases (m.args.lookup key).filter MarkerValue.isSupported with
      | none => rfl
      | some v => rfl
  rw [texts, texts, first keys (List.Subset.refl keys)]
  cases m.arg? keys with
  | none => rfl
  | some v => exact v.texts_firstText

end Marker

/-! ### Endpoints that share what is documented -/

namespace Endpoint

/-- The endpoints differ in their identifiers and their routes at most. -/
def SameButRoute (a b : Endpoint) : Prop := { a with id := b.id, uri := b.uri } = b

end Endpoint

namespace Spring
open Endpoint

/-- The handler with a mapping that names only the first of its paths. -/
def firstPathOnly (h : Handler) : Handler :=
  { h with markers := h.markers.map fun m =>
      if mappingMarkers.contains m.name then m.firstOf pathKeys else m }

theorem mapping?_firstPathOnly (h : Handler) :
    mapping? (firstPathOnly h).markers = (mapping? h.markers).map (·.firstOf pathKeys) := by
  obtain ⟨name, markers, doc, params, returns⟩ := h
  unfold mapping? firstPathOnly
  dsimp only
  induction markers with
  | nil => rfl
  | cons m markers ih =>
    rw [List.map_cons, List.find?_cons, List.find?_cons, ih]
    cases hm : mappingMarkers.contains m.name with
    | false =>
      rw [if_neg Bool.false_ne_true, hm]
    | true =>
      rw [if_pos rfl, show mappingMarkers.contains (m.firstOf pathKeys).name = true from hm]
      rfl

theorem paths_firstPathOnly (h : Handler) :
    paths (firstPathOnly h).markers = (paths h.markers).take 1 := by
  unfold paths mappingTexts
  rw [mapping?_firstPathOnly]
  cases mapping? h.markers with
  | none => rfl
  | some m => exact m.texts_firstOf pathKeys

/-- What the mapping says beside its paths stays. -/
theorem mappingTexts_firstPathOnly {keys : List String} (hkeys : ∀ key ∈ keys, key ∉ pathKeys)
    (h : Handler) :
    mappingTexts (firstPathOnly h).markers keys = mappingTexts h.markers keys := by
  unfold mappingTexts
  rw [mapping?_firstPathOnly]
  cases mapping? h.markers with
  | none => rfl
  | some m => exact m.texts_firstOf_of_disjoint hkeys

theorem methodOf_firstPathOnly (h : Handler) :
    methodOf (firstPathOnly h).markers = methodOf h.markers := by
  unfold methodOf
  rw [mapping?_firstPathOnly]
  cases mapping? h.markers with
  | none => rfl
  | some m =>
    have other : ∀ key ∈ ["method"], key ∉ pathKeys := by decide
    have texts := m.texts_firstOf_of_disjoint other
    simp only [Option.map_some, texts]
    rfl

theorem responseType?_firstPathOnly (h : Handler) :
    responseType? (firstPathOnly h) = responseType? h := by
  have same : Marker.find? (firstPathOnly h).markers "response_type" =
      Marker.find? h.markers "response_type" := by
    obtain ⟨name, markers, doc, params, returns⟩ := h
    unfold Marker.find? firstPathOnly
    dsimp only
    induction markers with
    | nil => rfl
    | cons m markers ih =>
      rw [List.map_cons, List.find?_cons, List.find?_cons, ih]
      by_cases hm : m.name = "response_type"
      · have other : mappingMarkers.contains m.name = false := by rw [hm]; decide
        rw [other]
        rfl
      · have hname : (m.name == "response_type") = false := beq_eq_false_iff_ne.mpr hm
        cases mappingMarkers.contains m.name with
        | false => rfl
        | true =>
          rw [if_pos rfl, show ((m.firstOf pathKeys).name == "response_type") = false from hname,
            hname]
  unfold responseType?
  rw [same]

/-! ### What is documented -/

/-- **A handler is documented once**, and then copied for each of its routes. -/
theorem value_endpoints_eq_ok_iff {types : Types} {baseUris : List String} {h : Handler}
    {e : Endpoint} {es : List Endpoint} :
    (endpoints types baseUris h e).value = .ok es ↔
      ∃ e', (documented types h (startOf baseUris h e)).run.value = .ok e' ∧
        es = perRoute e' (Uri.compose baseUris (paths h.markers)) := by
  rw [value_endpoints]
  constructor
  · intro ok
    obtain ⟨e', said, done⟩ := bind_eq_ok ok
    cases done
    exact ⟨e', said, rfl⟩
  · rintro ⟨e', said, rfl⟩
    rw [said]
    rfl

/-- Both start from the same route, the first one. -/
theorem startOf_firstPathOnly (baseUris : List String) (h : Handler) (e : Endpoint) :
    startOf baseUris (firstPathOnly h) e = startOf baseUris h e := by
  have first : ((paths h.markers).take 1).headD "" = (paths h.markers).headD "" := by
    cases paths h.markers <;> rfl
  unfold startOf
  rw [methodOf_firstPathOnly, paths_firstPathOnly, List.headD_eq_head?_getD,
    List.headD_eq_head?_getD, Uri.head?_compose, Uri.head?_compose, first]

/-- The paths of a handler count for its routes only. -/
theorem documented_firstPathOnly (types : Types) (h : Handler) (e : Endpoint) :
    documented types (firstPathOnly h) e = documented types h e := by
  have headers : ∀ e, addMappingHeaders (firstPathOnly h) e = addMappingHeaders h e := by
    intro e
    have declared : headerTexts (firstPathOnly h).markers = headerTexts h.markers :=
      mappingTexts_firstPathOnly (by decide) h
    have consumes : consumed (firstPathOnly h).markers = consumed h.markers :=
      mappingTexts_firstPathOnly (by decide) h
    have produces : produced (firstPathOnly h).markers = produced h.markers :=
      mappingTexts_firstPathOnly (by decide) h
    unfold addMappingHeaders
    rw [declared, consumes, produces]
  have visited : ∀ e, addHeaders types (firstPathOnly h) e = addHeaders types h e := by
    intro e
    unfold addHeaders
    rw [headers]
    rfl
  have responded : ∀ e, addResponse types (firstPathOnly h) e = addResponse types h e := by
    intro e
    unfold addResponse
    rw [responseType?_firstPathOnly]
    rfl
  unfold documented
  simp only [visited, responded]
  rfl

/-- Copies differ in their identifiers and their routes only. -/
theorem exists_of_mem_perRoute {e a : Endpoint} {uris : List String} (h : a ∈ perRoute e uris) :
    ∃ id uri, a = { e with id := id, uri := uri } := by
  obtain ⟨⟨uri, i⟩, -, rfl⟩ := List.mem_map.mp h
  exact ⟨routeId e.id i, uri, rfl⟩

theorem map_uri_perRoute (e : Endpoint) (uris : List String) :
    (perRoute e uris).map Endpoint.uri = uris := by
  unfold perRoute
  rw [List.map_map]
  exact List.zipIdx_map_fst 0 uris

theorem sameButRoute_of_mem_perRoute {e a b : Endpoint} {uris uris' : List String}
    (ha : a ∈ perRoute e uris) (hb : b ∈ perRoute e uris') : SameButRoute a b := by
  obtain ⟨id, uri, rfl⟩ := exists_of_mem_perRoute ha
  obtain ⟨id', uri', rfl⟩ := exists_of_mem_perRoute hb
  rfl

theorem perRoute_ne_nil {e : Endpoint} {uris : List String} (h : uris ≠ []) :
    perRoute e uris ≠ [] := by
  intro hnil
  have huris := map_uri_perRoute e uris
  rw [hnil] at huris
  exact h huris.symm

/-- **One endpoint for each route.**  A handler that is documented at all has at least one
endpoint, and exactly one for every route that its paths compose to, in order.  All of them say the
same except for identifier and route, and so do those of the handler with its first path only. -/
theorem endpoints_one_per_route (types : Types) (baseUris : List String) (h : Handler)
    (e : Endpoint) (es : List Endpoint) (ok : (endpoints types baseUris h e).value = .ok es) :
    es ≠ [] ∧
      es.map Endpoint.uri = Uri.compose baseUris (paths h.markers) ∧
      (es.map Endpoint.uri).Nodup ∧
      (∀ a ∈ es, ∀ b ∈ es, SameButRoute a b) ∧
      paths (firstPathOnly h).markers = (paths h.markers).take 1 ∧
      ∃ es', (endpoints types baseUris (firstPathOnly h) e).value = .ok es' ∧ es' ≠ [] ∧
        ∀ a ∈ es, ∀ b ∈ es', SameButRoute a b := by
  obtain ⟨e', said, rfl⟩ := value_endpoints_eq_ok_iff.mp ok
  have first : (endpoints types baseUris (firstPathOnly h) e).value =
      .ok (perRoute e' (Uri.compose baseUris (paths (firstPathOnly h).markers))) := by
    refine value_endpoints_eq_ok_iff.mpr ⟨e', ?_, rfl⟩
    rw [documented_firstPathOnly, startOf_firstPathOnly, said]
  refine ⟨perRoute_ne_nil (Uri.compose_ne_nil _ _), map_uri_perRoute _ _, ?_,
    fun a ha b hb => sameButRoute_of_mem_perRoute ha hb, paths_firstPathOnly h,
    _, first, perRoute_ne_nil (Uri.compose_ne_nil _ _),
    fun a ha b hb => sameButRoute_of_mem_perRoute ha hb⟩
  rw [map_uri_perRoute]
  exact Uri.nodup_compose _ _

/-- A handler with three paths, two of which come to the same. -/
def listItems : Handler where
  name := "list"
  markers := [⟨"get_mapping", [(Marker.positional,
    .list [.text "/items", .unsupported "function call", .text "things", .text "items/"])]⟩]
  doc := .none
  params := [⟨some "key", .named "String", [⟨pathVariable, []⟩]⟩]
  returns := some (.named "String")

/-- Under two bases it has four endpoints. -/
theorem listItems_endpoints :
    ∃ es, (endpoints itemTypes ["/v1", "/v2"] listItems (.new "list")).value = .ok es ∧
      es.map Endpoint.uri = ["/v1/items", "/v1/things", "/v2/items", "/v2/things"] ∧
      ∀ a ∈ es, ∀ b ∈ es, SameButRoute a b := by
  have succeeds : (endpoints itemTypes ["/v1", "/v2"] listItems
      (.new "list")).value.toOption.isSome = true := by decide +kernel
  cases ok : (endpoints itemTypes ["/v1", "/v2"] listItems (.new "list")).value with
  | error fault =>
    rw [ok] at succeeds
    cases succeeds
  | ok es =>
    obtain ⟨-, routes, -, same, -⟩ :=
      endpoints_one_per_route itemTypes ["/v1", "/v2"] listItems (.new "list") es ok
    have composed : Uri.compose ["/v1", "/v2"] (paths listItems.markers) =
        ["/v1/items", "/v1/things", "/v2/items", "/v2/things"] := by decide +kernel
    exact ⟨es, rfl, routes.trans composed, same⟩

end Spring
end RouteBook
