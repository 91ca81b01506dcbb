import RouteBook.Extract.Build
import RouteBook.Proofs.Spring.Naming
/-! # The endpoints of a chapter

The endpoints of a chapter are those of its handlers one after another (`endpoints_chapter`).  A
handler is documented by itself: with the routes of the controller, but without a look at the other
handlers.  One that cannot be documented has no endpoints, so the chapter is the same with it and
without it (`chapter_failures_isolated`); a warning is all that it leaves.
-/
namespace RouteBook
namespace Extract

/-! ### One handler after another -/

/-- The endpoints of a handler, unless it fails. -/
def endpointsOf? (dialect : Dialect) (types : Types) (uris : List String) (h : Handler) :
    Option (List Endpoint) := (dialect.endpoints types uris h (endpointFor h)).value.toOption

theorem value_endpointsOf (dialect : Dialect) (types : Types) (uris : List String)
    (c : Controller) (h : Handler) :
    (endpointsOf dialect types uris c h).value =
      (endpointsOf? dialect types uris h).getD [] := by
  unfold endpointsOf endpointsOf?
  rw [Logged.value_bind]
  cases (dialect.endpoints types uris h (endpointFor h)).value with
  | error fault => rfl
  | ok endpoints => rfl

theorem value_endpointsOfAll (dialect : Dialect) (types : Types) (uris : List String)
    (c : Controller) (hs : List Handler) :
    (endpointsOfAll dialect types uris c hs).value =
      (hs.filterMap (endpointsOf? dialect types uris)).flatten := by
  induction hs with
  | nil => rfl
  | cons h hs ih =>
    unfold endpointsOfAll
    rw [Logged.value_bind, Logged.value_bind, Logged.value_pure, value_endpointsOf, ih,
      List.filterMap_cons]
    cases endpointsOf? dialect types uris h with
    | none => rfl
    | some endpoints => exact List.flatten_cons.symm

/-- **The endpoints of a chapter** are those of its handlers that do not fail, in order. -/
theorem endpoints_chapter (dialect : Dialect) (types : Types) (urlPrefix : String)
    (c : Controller) :
    (chapter dialect types urlPrefix c).value.endpoints =
      ((c.handlers.filter (dialect.isHandler c)).filterMap
        (endpointsOf? dialect types (baseUris dialect urlPrefix c))).flatten :=
  value_endpointsOfAll dialect types (baseUris dialect urlPrefix c) c _

/-- All but the endpoints of a chapter comes from the controller itself, and not from its handlers. -/
theorem value_chapter_with (types : Types) (urlPrefix : String) (c : Controller)
    (hs : List Handler) :
    (chapter Spring.dialect types urlPrefix { c with handlers := hs }).value =
      { (chapter Spring.dialect types urlPrefix c).value with
        endpoints := ((hs.filter (Spring.isHandler c)).filterMap
          (endpointsOf? Spring.dialect types (baseUris Spring.dialect urlPrefix c))).flatten } := by
  rw [← value_endpointsOfAll _ _ _ { c with handlers := hs }]
  rfl

/-! ### Handlers that fail -/

theorem endpointsOf?_eq_none_iff {dialect : Dialect} {types : Types} {uris : List String}
    {h : Handler} :
    endpointsOf? dialect types uris h = none ↔
      ∃ fault, (dialect.endpoints types uris h (endpointFor h)).value = .error fault := by
  unfold endpointsOf?
  cases (dialect.endpoints types uris h (endpointFor h)).value with
  | error fault => exact ⟨fun _ => ⟨fault, rfl⟩, fun _ => rfl⟩
  | ok endpoints =>
    refine ⟨fun h => ?_, fun h => ?_⟩
    · cases h
    · obtain ⟨fault, h⟩ := h
      cases h

/-- **A handler that cannot be documented costs only itself.**  It fails iff a path variable or a
header of it has no name.  The endpoints of a chapter are those of its documented handlers, one after
another.  So wherever a handler that fails stands among the others, the chapter is the one without
it. -/
theorem chapter_failures_isolated (types : Types) (urlPrefix : String) (c : Controller) :
    (∀ h uris e, (∃ fault, (Spring.endpoints types uris h e).value = .error fault) ↔
      ∃ p ∈ h.params, Spring.isPathVariable p = true ∧ Spring.Nameless p Spring.pathVariable ∨
        Spring.isRequestHeader p = true ∧ Spring.Nameless p Spring.requestHeader) ∧
    (chapter Spring.dialect types urlPrefix c).value.endpoints =
      ((c.handlers.filter (Spring.isHandler c)).filterMap fun h =>
        (Spring.endpoints types (baseUris Spring.dialect urlPrefix c) h
          (endpointFor h)).value.toOption).flatten ∧
    ∀ front h back,
      (∃ fault, (Spring.endpoints types (baseUris Spring.dialect urlPrefix c) h
        (endpointFor h)).value = .error fault) →
      (chapter Spring.dialect types urlPrefix
          { c with handlers := front ++ h :: back }).value =
        (chapter Spring.dialect types urlPrefix { c with handlers := front ++ back }).value := by
  refine ⟨fun h uris e => Spring.exists_endpoints_eq_error_iff types uris h e,
    endpoints_chapter Spring.dialect types urlPrefix c, fun front h back fails => ?_⟩
  have absent : endpointsOf? Spring.dialect types (baseUris Spring.dialect urlPrefix c) h = none :=
    endpointsOf?_eq_none_iff.mpr fails
  have same : ((front ++ h :: back).filter (Spring.isHandler c)).filterMap
        (endpointsOf? Spring.dialect types (baseUris Spring.dialect urlPrefix c)) =
      ((front ++ back).filter (Spring.isHandler c)).filterMap
        (endpointsOf? Spring.dialect types (baseUris Spring.dialect urlPrefix c)) := by
    rw [List.filter_append, List.filter_append, List.filterMap_append, List.filterMap_append]
    cases accepted : Spring.isHandler c h with
    | false => rw [List.filter_cons_of_neg (by rw [accepted]; exact Bool.false_ne_true)]
    | true => rw [List.filter_cons_of_pos accepted, List.filterMap_cons_none absent]
  rw [value_chapter_with types urlPrefix c (front ++ h :: back),
    value_chapter_with types urlPrefix c (front ++ back), same]

/-- A handler whose path variable is a pair, and whose marker names it by blanks. -/
def pairVariable : Handler where
  name := "delete"
  markers := [⟨"delete_mapping", [(Marker.positional, .text "/\x7bid\x7d")]⟩]
  doc := .none
  params := [⟨none, .named "Path", [⟨Spring.pathVariable, [("name", .text " ")]⟩]⟩]
  returns := none

/-- A controller of items. -/
def items (handlers : List Handler) : Controller where
  name := "Items"
  markers := [⟨"rest_controller", []⟩, ⟨Spring.anyMapping, [(Marker.positional, .text "/items")]⟩]
  doc := .none
  handlers := handlers

/-- Between two handlers that are documented, it leaves no trace. -/
theorem chapter_items_pairVariable :
    Spring.isHandler (items []) pairVariable = true ∧
    (∃ fault, (Spring.endpoints Spring.itemTypes (baseUris Spring.dialect "" (items [])) pairVariable
      (endpointFor pairVariable)).value = .error fault) ∧
    (chapter Spring.dialect Spring.itemTypes ""
        (items [Spring.listItems, pairVariable, Spring.updateItem "key"])).value =
      (chapter Spring.dialect Spring.itemTypes ""
        (items [Spring.listItems, Spring.updateItem "key"])).value := by
  obtain ⟨failing, -, isolated⟩ := chapter_failures_isolated Spring.itemTypes "" (items [])
  have nameless : Spring.Nameless ⟨none, .named "Path",
      [⟨Spring.pathVariable, [("name", .text " ")]⟩]⟩ Spring.pathVariable :=
    Spring.clientName?_eq_none_iff.mp (by decide +kernel)
  have fails := (failing pairVariable (baseUris Spring.dialect "" (items []))
    (endpointFor pairVariable)).mpr ⟨_, List.mem_singleton_self _, .inl ⟨by decide, nameless⟩⟩
  exact ⟨by decide +kernel, fails,
    isolated [Spring.listItems] pairVariable [Spring.updateItem "key"] fails⟩

end Extract
end RouteBook
