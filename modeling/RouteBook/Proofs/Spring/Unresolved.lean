import RouteBook.Proofs.Spring.RequestRows
/-! # Parameters of unknown types

A header or a request parameter whose type has no description is as good as absent: the handler gives
the endpoints that it gives without the parameter (`endpoints_of_unresolved`).  The two steps that
look at such a parameter leave what they have so far as it is, and all the others pass it over.

A body of such a type is not absent, since the request parameters are not sent in its place; nothing
is sent then (`value_attachBody_of_unavailable`).
-/
namespace RouteBook

/-! ### Idle elements of folds -/

section Idle

variable {α β ε : Type} {before after : List α} {a : α} {p : α → Bool}

theorem filter_of_not (h : p a = false) :
    (before ++ a :: after).filter p = (before ++ after).filter p := by
  rw [List.filter_append, List.filter_cons_of_neg (Bool.not_eq_true _ ▸ h), ← List.filter_append]

/-- An element at which nothing is done makes no difference to a fold. -/
theorem foldl_filter_of_idle {f : β → α → β} (idle : ∀ b, f b a = b) (b : β) :
    ((before ++ a :: after).filter p).foldl f b = ((before ++ after).filter p).foldl f b := by
  cases h : p a with
  | false => rw [filter_of_not h]
  | true =>
    rw [List.filter_append, List.filter_cons_of_pos h, List.foldl_append, List.foldl_cons, idle,
      List.filter_append, List.foldl_append]

/-- The same, for steps that may fail. -/
theorem foldlM_filter_of_idle {f : β → α → Except ε β} (idle : p a = true → ∀ b, f b a = .ok b)
    (b : β) :
    ((before ++ a :: after).filter p).foldlM f b = ((before ++ after).filter p).foldlM f b := by
  cases h : p a with
  | false => rw [filter_of_not h]
  | true =>
    rw [List.filter_append, List.filter_cons_of_pos h, List.foldlM_append, List.filter_append,
      List.foldlM_append]
    refine congrArg (_ >>= ·) (funext fun b => ?_)
    rw [List.foldlM_cons, idle h]
    rfl

end Idle

/-- A handler with other parameters. -/
def Handler.withParams (h : Handler) (ps : List HandlerParam) : Handler := { h with params := ps }

namespace Spring

/-- **A parameter that leaves no trace**: of an unknown type, and neither a path variable, nor the
body, nor a header without a name. -/
structure IsUnresolved (types : Types) (p : HandlerParam) : Prop where
  unavailable : (types.resolve p.type).value.isAvailable = false
  noPathVariable : isPathVariable p = false
  noBody : isRequestBody p = false
  named : isRequestHeader p = true → ∃ key, clientName? p requestHeader = some key

variable {types : Types} {p : HandlerParam}

/-! ### One step -/

theorem value_mergeParam_of_unavailable
    (unavailable : (types.resolve p.type).value.isAvailable = false) (h : Handler) (e : Endpoint)
    (merged : Schema) :
    (mergeParam types h e merged p).value = merged := by
  unfold mergeParam
  rw [Logged.value_bind, unavailable]
  rfl

theorem IsUnresolved.value_addHeader (hp : IsUnresolved types p) (isHeader : isRequestHeader p = true)
    (h : Handler) (e : Endpoint) : (addHeader types h e p).run.value = .ok e := by
  obtain ⟨key, named⟩ := hp.named isHeader
  rw [Spring.value_addHeader, named]
  dsimp only
  rw [hp.unavailable]
  rfl

/-- A body of an unknown type is not sent, and nothing else is. -/
theorem value_attachBody_of_unavailable
    (unavailable : (types.resolve p.type).value.isAvailable = false) (h : Handler) (e : Endpoint) :
    (attachBody types h e p).value = e := by
  unfold attachBody
  rw [Logged.value_bind, unavailable]
  rfl

/-! ### All the steps -/

section Without

variable (h : Handler) (before after : List HandlerParam) (e : Endpoint)

theorem addPathVariables_without (hp : IsUnresolved types p) :
    addPathVariables (h.withParams (before ++ p :: after)) e =
      addPathVariables (h.withParams (before ++ after)) e := by
  unfold addPathVariables
  dsimp only [Handler.withParams]
  rw [filter_of_not hp.noPathVariable]
  rfl

theorem value_addHeaders_without (hp : IsUnresolved types p) :
    (addHeaders types (h.withParams (before ++ p :: after)) e).run.value =
      (addHeaders types (h.withParams (before ++ after)) e).run.value := by
  unfold addHeaders
  rw [Visit.value_foldlM, Visit.value_foldlM]
  exact foldlM_filter_of_idle (fun isHeader e => hp.value_addHeader isHeader _ e) _

theorem sentParams?_without (hp : IsUnresolved types p) :
    sentParams? types (h.withParams (before ++ p :: after)) e =
      sentParams? types (h.withParams (before ++ after)) e := by
  have same : (mergedParams types (h.withParams (before ++ p :: after)) e).value =
      (mergedParams types (h.withParams (before ++ after)) e).value := by
    unfold mergedParams
    rw [Logged.value_foldlM, Logged.value_foldlM]
    exact foldl_filter_of_idle (value_mergeParam_of_unavailable hp.unavailable _ e) _
  rw [sentParams?, sentParams?, same]

theorem bodyParam?_without (hp : IsUnresolved types p) :
    bodyParam? (before ++ p :: after) = bodyParam? (before ++ after) := by
  unfold bodyParam?
  rw [List.find?_append, List.find?_cons_of_neg (Bool.not_eq_true _ ▸ hp.noBody),
    ← List.find?_append]

theorem value_addParams_without (hp : IsUnresolved types p) :
    (addParams types (h.withParams (before ++ p :: after)) e).value =
      (addParams types (h.withParams (before ++ after)) e).value := by
  have body : bodyParam? (h.withParams (before ++ p :: after)).params =
      bodyParam? (h.withParams (before ++ after)).params := bodyParam?_without before after hp
  unfold addParams
  by_cases hget : e.method = .get
  · rw [if_pos hget, if_pos hget, value_attachParams, value_attachParams,
      sentParams?_without h before after e hp]
  · rw [if_neg hget, if_neg hget]
    dsimp only
    rw [body]
    cases bodyParam? (h.withParams (before ++ after)).params with
    | none => rw [value_attachParams, value_attachParams, sentParams?_without h before after _ hp]
    | some q => rw [value_attachBody, value_attachBody]

/-- **A parameter of an unknown type is omitted**: the handler gives the same endpoints without it. -/
theorem endpoints_of_unresolved (hp : IsUnresolved types p) (baseUris : List String) :
    (endpoints types baseUris (h.withParams (before ++ p :: after)) e).value =
      (endpoints types baseUris (h.withParams (before ++ after)) e).value := by
  have start : startOf baseUris (h.withParams (before ++ p :: after)) e =
      startOf baseUris (h.withParams (before ++ after)) e := rfl
  have steps : ∀ e, (documented types (h.withParams (before ++ p :: after)) e).run.value =
      (documented types (h.withParams (before ++ after)) e).run.value := by
    intro e
    rw [value_documented, value_documented, addPathVariables_without h before after e hp]
    refine congrArg (_ >>= ·) (funext fun e₁ => ?_)
    rw [value_addHeaders_without h before after e₁ hp]
    refine congrArg (_ >>= ·) (funext fun e₂ => ?_)
    rw [value_addParams_without h before after e₂ hp]
    rfl
  rw [value_endpoints, value_endpoints, start, steps]
  rfl

end Without
end Spring
end RouteBook
