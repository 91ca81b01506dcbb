import RouteBook.Proofs.Spring.Routes
/-! # Handlers that cannot be documented

A path variable and a header need a name that clients use.  Where a parameter binds no single name,
its marker has to say one (`Nameless`).  A handler is documented unless one of its path variables, or
one of its headers, has no name; nothing else makes it fail, whatever the types, the routes and the
documentation are (`value_endpoints_eq_error_iff`).

Path variables come first, so a handler that lacks names of both kinds is reported for a path
variable.  A header whose type cannot be described is left out, but only after its name has been
looked for.
-/
namespace RouteBook
namespace Spring

/-! ### Names -/

/-- **A parameter without a name**: it binds none, and what its marker says first, by position or as
`name`, is missing or gives no text but blanks. -/
structure Nameless (p : HandlerParam) (marker : String) : Prop where
  unbound : p.name = none
  unsaid : ∀ m, Marker.find? p.markers marker = some m →
    ∀ v, m.arg? [Marker.positional, "name"] = some v → ∀ s, v.text? = some s → Text.blank s = true

theorem clientName?_eq_none_iff {p : HandlerParam} {marker : String} :
    clientName? p marker = none ↔ Nameless p marker := by
  unfold clientName?
  dsimp only
  rw [Option.or_eq_none_iff, Option.filter_eq_none_iff]
  constructor
  · rintro ⟨unsaid, unbound⟩
    refine ⟨unbound, fun m hm v hv s hs => ?_⟩
    have blank := unsaid s (by rw [hm, Option.bind_some, Marker.text?, hv, Option.bind_some, hs])
    rwa [Bool.not_eq_true', Bool.not_eq_false] at blank
  · rintro ⟨unbound, unsaid⟩
    refine ⟨fun s hs => ?_, unbound⟩
    obtain ⟨m, hm, hs⟩ := Option.bind_eq_some_iff.mp hs
    obtain ⟨v, hv, hs⟩ := Option.bind_eq_some_iff.mp hs
    rw [unsaid m hm v hv s hs]
    exact Bool.false_ne_true

/-! ### What fails -/

theorem addPathVariable_eq_error_iff (h : Handler) (e : Endpoint) (p : HandlerParam)
    (fault : MissingData) :
    addPathVariable h e p = .error fault ↔
      Nameless p pathVariable ∧ fault = ⟨h.name, .unnamedPathVariable⟩ := by
  rw [← clientName?_eq_none_iff]
  unfold addPathVariable
  cases clientName? p pathVariable with
  | none =>
    rw [Except.error.injEq]
    exact ⟨fun h => ⟨rfl, h.symm⟩, fun h => h.2.symm⟩
  | some key =>
    refine ⟨fun h => ?_, fun h => ?_⟩
    · cases h
    · cases h.1

theorem addHeader_eq_error_iff (types : Types) (h : Handler) (e : Endpoint) (p : HandlerParam)
    (fault : MissingData) :
    (addHeader types h e p).run.value = .error fault ↔
      Nameless p requestHeader ∧ fault = ⟨h.name, .unnamedHeader⟩ := by
  rw [← clientName?_eq_none_iff, value_addHeader]
  cases clientName? p requestHeader with
  | none =>
    rw [Except.error.injEq]
    exact ⟨fun h => ⟨rfl, h.symm⟩, fun h => h.2.symm⟩
  | some key =>
    refine ⟨fun h => ?_, fun h => ?_⟩
    · cases h
    · cases h.1

theorem addPathVariables_eq_error_iff (h : Handler) (e : Endpoint) (fault : MissingData) :
    addPathVariables h e = .error fault ↔
      (∃ p ∈ h.params.filter isPathVariable, Nameless p pathVariable) ∧
        fault = ⟨h.name, .unnamedPathVariable⟩ :=
  foldlM_eq_error_iff (addPathVariable_eq_error_iff h) _ e fault

theorem addHeaders_eq_error_iff (types : Types) (h : Handler) (e : Endpoint)
    (fault : MissingData) :
    (addHeaders types h e).run.value = .error fault ↔
      (∃ p ∈ h.params.filter isRequestHeader, Nameless p requestHeader) ∧
        fault = ⟨h.name, .unnamedHeader⟩ := by
  unfold addHeaders
  rw [Visit.value_foldlM]
  exact foldlM_eq_error_iff (addHeader_eq_error_iff types h) _ _ fault

/-- **When a handler cannot be documented, and why.** -/
theorem value_endpoints_eq_error_iff (types : Types) (baseUris : List String) (h : Handler)
    (e : Endpoint) (fault : MissingData) :
    (endpoints types baseUris h e).value = .error fault ↔
      (∃ p ∈ h.params.filter isPathVariable, Nameless p pathVariable) ∧
        fault = ⟨h.name, .unnamedPathVariable⟩ ∨
      (¬ ∃ p ∈ h.params.filter isPathVariable, Nameless p pathVariable) ∧
        (∃ p ∈ h.params.filter isRequestHeader, Nameless p requestHeader) ∧
        fault = ⟨h.name, .unnamedHeader⟩ := by
  -- copying for the routes never fails, and neither does what comes behind the headers
  have copied : (endpoints types baseUris h e).value = .error fault ↔
      (documented types h (startOf baseUris h e)).run.value = .error fault := by
    rw [value_endpoints, bind_eq_error_iff]
    refine ⟨fun failed => failed.resolve_right ?_, .inl⟩
    rintro ⟨e', -, done⟩
    cases done
  have headers (e₁ : Endpoint) : (do
        let e₂ ← (addHeaders types h e₁).run.value
        return (addResponse types h (addParams types h e₂).value).value) = Except.error fault ↔
      (addHeaders types h e₁).run.value = .error fault := by
    rw [bind_eq_error_iff]
    refine ⟨fun failed => failed.resolve_right ?_, .inl⟩
    rintro ⟨e₂, -, done⟩
    cases done
  rw [copied, value_documented, bind_eq_error_iff, addPathVariables_eq_error_iff]
  refine or_congr_right ?_
  simp only [headers, addHeaders_eq_error_iff]
  cases visited : addPathVariables h (startOf baseUris h e) with
  | error other =>
    have lacking := ((addPathVariables_eq_error_iff h _ other).mp visited).1
    refine ⟨fun failed => ?_, fun failed => absurd lacking failed.1⟩
    obtain ⟨e₁, named, -⟩ := failed
    cases named
  | ok e₁ =>
    have named : ¬ ∃ p ∈ h.params.filter isPathVariable, Nameless p pathVariable := by
      intro lacking
      rw [(addPathVariables_eq_error_iff h _ _).mpr ⟨lacking, rfl⟩] at visited
      cases visited
    exact ⟨fun failed => ⟨named, failed.choose_spec.2⟩, fun failed => ⟨e₁, rfl, failed.2⟩⟩

/-- A handler cannot be documented iff one of its path variables or one of its headers has no name,
under whatever routes and with whatever types. -/
theorem exists_endpoints_eq_error_iff (types : Types) (baseUris : List String) (h : Handler)
    (e : Endpoint) :
    (∃ fault, (endpoints types baseUris h e).value = .error fault) ↔
      ∃ p ∈ h.params, isPathVariable p = true ∧ Nameless p pathVariable ∨
        isRequestHeader p = true ∧ Nameless p requestHeader := by
  simp only [value_endpoints_eq_error_iff, List.mem_filter]
  constructor
  · rintro ⟨fault, ⟨⟨p, ⟨hp, hmarked⟩, nameless⟩, -⟩ | ⟨-, ⟨p, ⟨hp, hmarked⟩, nameless⟩, -⟩⟩
    · exact ⟨p, hp, .inl ⟨hmarked, nameless⟩⟩
    · exact ⟨p, hp, .inr ⟨hmarked, nameless⟩⟩
  · rintro ⟨p, hp, unnamed⟩
    -- a header is only reported if the path variables all have names
    by_cases lacking : ∃ p, (p ∈ h.params ∧ isPathVariable p = true) ∧ Nameless p pathVariable
    · exact ⟨_, .inl ⟨lacking, rfl⟩⟩
    · obtain ⟨hmarked, nameless⟩ | ⟨hmarked, nameless⟩ := unnamed
      · exact absurd ⟨p, ⟨hp, hmarked⟩, nameless⟩ lacking
      · exact ⟨_, .inr ⟨lacking, ⟨p, ⟨hp, hmarked⟩, nameless⟩, rfl⟩⟩

end Spring
end RouteBook
