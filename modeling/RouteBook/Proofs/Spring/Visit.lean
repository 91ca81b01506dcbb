import RouteBook.Proofs.Steps
import RouteBook.Spring.Endpoints
/-! # Documenting a handler, step by step

Which steps of a visit succeed, and with what, does not depend on the warnings: the value of a visit
is a computation in `Except` (`value_run_bind`, `Visit.value_foldlM`).

The headers are the longest of these steps.  They do nothing to an endpoint but add headers to it,
so a relation that adding a header respects holds between the endpoint before and the one after
(`RespectsHeaders.addHeaders`).
-/
namespace RouteBook
namespace Spring

/-! ### Values of visits -/

variable {α β : Type}

theorem Visit.value_foldlM (f : β → α → Visit β) (as : List α) (b : β) :
    (as.foldlM f b).run.value = as.foldlM (fun b a => (f b a).run.value) b := by
  induction as generalizing b with
  | nil => rfl
  | cons a as ih =>
    rw [List.foldlM_cons, List.foldlM_cons, value_run_bind]
    simp only [ih]

/-! ### Headers -/

/-- A header parameter with a name is added as a header, or left out if its type is unknown. -/
theorem value_addHeader (types : Types) (h : Handler) (e : Endpoint) (p : HandlerParam) :
    (addHeader types h e p).run.value =
      match clientName? p requestHeader with
      | none => .error ⟨h.name, .unnamedHeader⟩
      | some key =>
        let s := (types.resolve p.type).value
        .ok (if s.isAvailable then e.addInHeader ⟨key, headerValue p s⟩ else e) := by
  unfold addHeader
  cases clientName? p requestHeader with
  | none => rfl
  | some key =>
    dsimp only
    rw [value_run_bind, value_run_lift]
    -- under `run`, the test is still that of the visit
    show (if !(types.resolve p.type).value.isAvailable then _ else _ : Visit Endpoint).run.value = _
    cases (types.resolve p.type).value.isAvailable with
    | false => rfl
    | true => rfl

/-- A relation between an endpoint and what becomes of it which holds when headers are added. -/
structure RespectsHeaders (Keeps : Endpoint → Endpoint → Prop) : Prop where
  refl : ∀ e, Keeps e e
  trans : ∀ {e₁ e₂ e₃}, Keeps e₁ e₂ → Keeps e₂ e₃ → Keeps e₁ e₃
  addInHeader : ∀ e header, Keeps e (e.addInHeader header)
  addOutHeader : ∀ e header, Keeps e (e.addOutHeader header)

namespace RespectsHeaders

variable {Keeps : Endpoint → Endpoint → Prop}

theorem addMappingHeaders (respects : RespectsHeaders Keeps) (h : Handler) (e : Endpoint) :
    Keeps e (addMappingHeaders h e) := by
  have declared := foldl_of_step respects.refl respects.trans respects.addInHeader
    ((headerTexts h.markers).filterMap Header.parse?) e
  have consumes : ∀ e', Keeps e e' → Keeps e (if (consumed h.markers).isEmpty then e'
      else e'.addInHeader ⟨Header.contentType, Text.joined "," (consumed h.markers)⟩) := by
    intro e' keeps
    split
    · exact keeps
    · exact respects.trans keeps (respects.addInHeader e' _)
  unfold Spring.addMappingHeaders
  dsimp only
  split
  · exact consumes _ declared
  · exact respects.trans (consumes _ declared) (respects.addOutHeader _ _)

theorem addHeader (respects : RespectsHeaders Keeps) {types : Types} {h : Handler}
    {e e' : Endpoint} {p : HandlerParam} (ok : (addHeader types h e p).run.value = .ok e') :
    Keeps e e' := by
  rw [value_addHeader] at ok
  cases named : clientName? p requestHeader with
  | none =>
    rw [named] at ok
    cases ok
  | some key =>
    rw [named] at ok
    cases ok
    split
    · exact respects.addInHeader _ _
    · exact respects.refl e

theorem addHeaders (respects : RespectsHeaders Keeps) {types : Types} {h : Handler}
    {e e' : Endpoint} (ok : (addHeaders types h e).run.value = .ok e') : Keeps e e' := by
  unfold Spring.addHeaders at ok
  rw [Visit.value_foldlM] at ok
  exact respects.trans (respects.addMappingHeaders h e)
    (foldlM_ok_of_step respects.refl respects.trans respects.addHeader ok)

end RespectsHeaders

/-! ### All the steps -/

/-- What a handler documents, starting from an endpoint with its method and its first route. -/
def documented (types : Types) (h : Handler) (e : Endpoint) : Visit Endpoint := do
  let e ← (addPathVariables h e : Except MissingData Endpoint)
  let e ← addHeaders types h e
  let e ← addParams types h e
  addResponse types h e

/-- The endpoint that a handler starts from. -/
def startOf (baseUris : List String) (h : Handler) (e : Endpoint) : Endpoint :=
  { e with
    method := methodOf h.markers
    uri := (Uri.compose baseUris (paths h.markers)).headD e.uri }

/-- Only path variables and headers can make a handler fail; what follows them only warns. -/
theorem value_documented (types : Types) (h : Handler) (e : Endpoint) :
    (documented types h e).run.value = do
      let e₁ ← addPathVariables h e
      let e₂ ← (addHeaders types h e₁).run.value
      return (addResponse types h (addParams types h e₂).value).value := by
  unfold documented
  rw [value_run_bind, value_run_liftM]
  refine congrArg (_ >>= ·) (funext fun e₁ => ?_)
  rw [value_run_bind]
  rfl

/-- **A handler is documented once**, whatever number of routes it has. -/
theorem value_endpoints (types : Types) (baseUris : List String) (h : Handler) (e : Endpoint) :
    (endpoints types baseUris h e).value = do
      let e' ← (documented types h (startOf baseUris h e)).run.value
      return perRoute e' (Uri.compose baseUris (paths h.markers)) := by
  have steps : (endpoints types baseUris h e).value = do
      let e₁ ← addPathVariables h (startOf baseUris h e)
      let e₂ ← (addHeaders types h e₁).run.value
      return perRoute (addResponse types h (addParams types h e₂).value).value
        (Uri.compose baseUris (paths h.markers)) := by
    unfold endpoints
    dsimp only
    rw [value_run_bind, value_run_liftM]
    refine congrArg (_ >>= ·) (funext fun e₁ => ?_)
    rw [value_run_bind]
    rfl
  rw [steps, value_documented, bind_assoc]
  refine congrArg (_ >>= ·) (funext fun e₁ => ?_)
  rw [bind_assoc]
  rfl

end Spring
end RouteBook
