import RouteBook.Proofs.Spring.Routes
/-! # What the comment of a handler says

An endpoint starts with what the comment of its handler says: identifier, name, description and tags,
and whether it is ignored.  Documenting the handler puts variables, headers and rows beside that, and
samples of what is sent and what comes back.  It changes nothing of what was said before
(`keepsHeading_documented`), so no later step can miss it.
-/
namespace RouteBook

namespace Endpoint

/-- What the documentation of a handler says by itself is untouched. -/
structure KeepsHeading (before after : Endpoint) : Prop where
  id : after.id = before.id
  name : after.name = before.name
  description : after.description = before.description
  tags : after.tags = before.tags
  isIgnored : after.isIgnored = before.isIgnored

theorem KeepsHeading.refl (e : Endpoint) : KeepsHeading e e := ⟨rfl, rfl, rfl, rfl, rfl⟩

theorem KeepsHeading.trans {e₁ e₂ e₃ : Endpoint} (h : KeepsHeading e₁ e₂)
    (h' : KeepsHeading e₂ e₃) : KeepsHeading e₁ e₃ where
  id := h'.id.trans h.id
  name := h'.name.trans h.name
  description := h'.description.trans h.description
  tags := h'.tags.trans h.tags
  isIgnored := h'.isIgnored.trans h.isIgnored

theorem keepsHeading_addRequestRows (e : Endpoint) (rows : List Row) :
    KeepsHeading e (e.addRequestRows rows) :=
  foldl_of_step .refl .trans (fun _ _ => ⟨rfl, rfl, rfl, rfl, rfl⟩) rows e

theorem keepsHeading_addResponseRows (e : Endpoint) (rows : List Row) :
    KeepsHeading e (e.addResponseRows rows) :=
  foldl_of_step .refl .trans (fun _ _ => ⟨rfl, rfl, rfl, rfl, rfl⟩) rows e

end Endpoint

namespace Spring
open Endpoint

theorem keepsHeading_addPathVariables {h : Handler} {e e' : Endpoint}
    (ok : addPathVariables h e = .ok e') : KeepsHeading e e' := by
  refine foldlM_ok_of_step .refl .trans (fun {e p e'} ok => ?_) ok
  unfold addPathVariable at ok
  split at ok
  · cases ok
    exact ⟨rfl, rfl, rfl, rfl, rfl⟩
  · cases ok

theorem respectsHeaders_keepsHeading : RespectsHeaders KeepsHeading where
  refl := .refl
  trans := .trans
  addInHeader _ _ := ⟨rfl, rfl, rfl, rfl, rfl⟩
  addOutHeader _ _ := ⟨rfl, rfl, rfl, rfl, rfl⟩

/-- What is sent, if anything is. -/
theorem keepsHeading_attach (e : Endpoint) (sent? : Option Schema) :
    KeepsHeading e (sent?.elim e (attach e)) := by
  cases sent? with
  | none => exact .refl e
  | some s =>
    have parameter : KeepsHeading e { e with parameter := some s.sample } :=
      ⟨rfl, rfl, rfl, rfl, rfl⟩
    exact parameter.trans (keepsHeading_addRequestRows _ s.rows)

theorem keepsHeading_addParams (types : Types) (h : Handler) (e : Endpoint) :
    KeepsHeading e (addParams types h e).value := by
  have attachedParams (e' : Endpoint) : KeepsHeading e' (attachParams types h e').value := by
    rw [value_attachParams]
    exact keepsHeading_attach e' _
  have attachedBody (e' : Endpoint) (p : HandlerParam) :
      KeepsHeading e' (attachBody types h e' p).value := by
    rw [value_attachBody]
    exact keepsHeading_attach e' _
  have content (e' : Endpoint) : KeepsHeading e' (if (e'.inHeaders.lookup
      Header.contentType).isSome then e' else e'.addInHeader Header.jsonContentType) := by
    split
    · exact .refl e'
    · exact ⟨rfl, rfl, rfl, rfl, rfl⟩
  unfold addParams
  split
  · exact attachedParams e
  -- a body: the query is not used, and the content type is JSON unless the handler says another
  · have body : KeepsHeading e { e with usesQuery := false } := ⟨rfl, rfl, rfl, rfl, rfl⟩
    dsimp only
    split
    · exact (body.trans (content _)).trans (attachedBody _ _)
    · exact (body.trans (content _)).trans (attachedParams _)

theorem keepsHeading_addResponse (types : Types) (h : Handler) (e : Endpoint) :
    KeepsHeading e (addResponse types h e).value := by
  have attached (s : Schema) : KeepsHeading e (attachResponse e s) := by
    have response : KeepsHeading e { e with response := some s.sample } := ⟨rfl, rfl, rfl, rfl, rfl⟩
    unfold attachResponse
    split
    · exact .refl e
    · dsimp only
      split
      · exact response
      · exact response.trans (keepsHeading_addResponseRows _ s.rows)
  unfold addResponse
  split
  · exact attached _
  · exact attached _
  · exact .refl e

/-- **Documenting a handler adds to what its comment says, and changes none of it.** -/
theorem keepsHeading_documented {types : Types} {h : Handler} {e e' : Endpoint}
    (ok : (documented types h e).run.value = .ok e') : KeepsHeading e e' := by
  rw [value_documented] at ok
  obtain ⟨e₁, named, ok⟩ := bind_eq_ok ok
  obtain ⟨e₂, headers, done⟩ := bind_eq_ok ok
  cases done
  exact ((keepsHeading_addPathVariables named).trans
    (respectsHeaders_keepsHeading.addHeaders headers)).trans
      ((keepsHeading_addParams types h e₂).trans (keepsHeading_addResponse types h _))

/-- So every endpoint of a handler has the tags that it started with. -/
theorem tags_of_mem_endpoints {types : Types} {baseUris : List String} {h : Handler} {e : Endpoint}
    {es : List Endpoint} (ok : (endpoints types baseUris h e).value = .ok es) :
    ∀ e' ∈ es, e'.tags = e.tags := by
  intro e' he'
  obtain ⟨d, said, rfl⟩ := value_endpoints_eq_ok_iff.mp ok
  obtain ⟨id, uri, rfl⟩ := exists_of_mem_perRoute he'
  exact (keepsHeading_documented said).tags

end Spring
end RouteBook
