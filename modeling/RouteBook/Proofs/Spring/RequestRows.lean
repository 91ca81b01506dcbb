import RouteBook.Proofs.Document.RowTable
import RouteBook.Proofs.Spring.Visit
/-! # The request rows of an endpoint

A handler documents a row for every path variable, and then the rows of what is sent with the
request: those of the body, or those of the request parameters.  An endpoint keeps its rows by
their keys, and a row takes the place of an earlier one with its key.

So the request rows of an endpoint are the documented ones put in one after another
(`requestRows_of_mem_endpoints`), and all of them are kept iff no two have one key
(`requestRows_eq_iff_nodup`).  Nothing sees to that: the name of a path variable may well be the
name of a field of the body, and then the path variable has no row in the documents.
-/
namespace RouteBook

/-! ### What leaves the rows alone -/

namespace Endpoint

/-- Nothing that decides about request rows is touched: the rows so far, the tags that give their
remarks, and the request method. -/
structure KeepsRequest (before after : Endpoint) : Prop where
  requestRows : after.requestRows = before.requestRows
  tags : after.tags = before.tags
  method : after.method = before.method

theorem KeepsRequest.refl (e : Endpoint) : KeepsRequest e e := ⟨rfl, rfl, rfl⟩

theorem KeepsRequest.trans {e₁ e₂ e₃ : Endpoint} (h : KeepsRequest e₁ e₂)
    (h' : KeepsRequest e₂ e₃) : KeepsRequest e₁ e₃ where
  requestRows := h'.requestRows.trans h.requestRows
  tags := h'.tags.trans h.tags
  method := h'.method.trans h.method

end Endpoint

namespace Spring
open Endpoint

/-! ### Path variables -/

/-- The rows of path variables, as far as they have names. -/
def pathRows (e : Endpoint) (ps : List HandlerParam) : List Row :=
  ps.filterMap fun p => (clientName? p pathVariable).map (pathRow e p)

/-- Only the tags of an endpoint count for the remarks of its parameters. -/
theorem paramRemark?_congr {e₁ e₂ : Endpoint} (h : e₁.tags = e₂.tags) (p : HandlerParam)
    (key : String) : paramRemark? e₁ p key = paramRemark? e₂ p key := by
  unfold paramRemark? Endpoint.param?
  rw [h]

/-- A handler all of whose path variables have names gets a row for each of them. -/
theorem foldlM_addPathVariable {h : Handler} {ps : List HandlerParam} {start e e' : Endpoint}
    (htags : e.tags = start.tags) (ok : ps.foldlM (addPathVariable h) e = .ok e') :
    (pathRows start ps).length = ps.length ∧
      e'.requestRows = Row.putAll e.requestRows (pathRows start ps) ∧
      e'.tags = start.tags ∧ e'.method = e.method := by
  induction ps generalizing e with
  | nil =>
    cases ok
    exact ⟨rfl, rfl, htags, rfl⟩
  | cons p ps ih =>
    rw [List.foldlM_cons] at ok
    cases named : clientName? p pathVariable with
    | none =>
      rw [addPathVariable, named] at ok
      cases ok
    | some key =>
      rw [addPathVariable, named] at ok
      have row : pathRow e p key = pathRow start p key := by
        rw [pathRow, pathRow, paramRemark?_congr htags]
      have rows : pathRows start (p :: ps) = pathRow start p key :: pathRows start ps := by
        rw [pathRows, List.filterMap_cons, named]
        rfl
      have same : ((e.addPathVariable key).addRequestRow (pathRow e p key)).tags = start.tags :=
        htags
      obtain ⟨hlength, hrows, htags', hmethod⟩ := ih same ok
      rw [rows, List.length_cons, List.length_cons, hlength, hrows, ← row]
      exact ⟨rfl, rfl, htags', hmethod⟩

/-! ### Headers -/

theorem respectsHeaders_keepsRequest : RespectsHeaders KeepsRequest where
  refl := .refl
  trans := .trans
  addInHeader _ _ := ⟨rfl, rfl, rfl⟩
  addOutHeader _ _ := ⟨rfl, rfl, rfl⟩

/-! ### What is sent -/

/-- The request parameters depend on the tags of an endpoint only. -/
theorem mergedParams_congr {e₁ e₂ : Endpoint} (htags : e₁.tags = e₂.tags) (types : Types)
    (h : Handler) : mergedParams types h e₁ = mergedParams types h e₂ := by
  have step : mergeParam types h e₁ = mergeParam types h e₂ := by
    funext merged p
    unfold mergeParam paramField
    simp only [paramRemark?_congr htags]
  rw [mergedParams, mergedParams, step]

/-- The request parameters of a handler as one schema, if there are any. -/
def sentParams? (types : Types) (h : Handler) (e : Endpoint) : Option Schema :=
  let merged := (mergedParams types h e).value
  match merged.fields? with
  | some (_ :: _) => some merged
  | _ => none

/-- The body of a handler, if its type is known.  A scalar goes by the name of the parameter. -/
def sentBody? (types : Types) (p : HandlerParam) : Option Schema :=
  let s := (types.resolve p.type).value
  if !s.isAvailable then none
  else
    match s.isScalar, p.name with
    | true, some name => some (s.withKey name)
    | _, _ => some s

/-- What a handler says is sent with a request. -/
def sent? (types : Types) (h : Handler) (e : Endpoint) : Option Schema :=
  if methodOf h.markers = .get then sentParams? types h e
  else
    match bodyParam? h.params with
    | some p => sentBody? types p
    | none => sentParams? types h e

/-- The rows of what is sent, if anything is. -/
def sentRows (sent? : Option Schema) : List Row := (sent?.map Schema.rows).getD []

theorem value_attachParams (types : Types) (h : Handler) (e : Endpoint) :
    (attachParams types h e).value = (sentParams? types h e).elim e (attach e) := by
  unfold attachParams sentParams?
  rw [Logged.value_bind]
  dsimp only
  cases (mergedParams types h e).value.fields? with
  | none => rfl
  | some fields =>
    cases fields with
    | nil => rfl
    | cons => rfl

theorem value_attachBody (types : Types) (h : Handler) (e : Endpoint) (p : HandlerParam) :
    (attachBody types h e p).value = (sentBody? types p).elim e (attach e) := by
  unfold attachBody sentBody?
  rw [Logged.value_bind]
  dsimp only
  cases (types.resolve p.type).value.isAvailable with
  | false => rfl
  | true =>
    cases (types.resolve p.type).value.isScalar with
    | false => rfl
    | true =>
      cases p.name with
      | none => rfl
      | some name => rfl

theorem requestRows_attach (e : Endpoint) (sent? : Option Schema) :
    (sent?.elim e (attach e)).requestRows = Row.putAll e.requestRows (sentRows sent?) := by
  cases sent? with
  | none => rfl
  | some s => exact requestRows_addRequestRows _ _

/-- An endpoint before what is sent is added to it: the parameters of a `GET` request are in the query,
and any other request has a content type. -/
def forSending (e : Endpoint) : Endpoint :=
  if e.method = .get then e
  else
    let e := { e with usesQuery := false }
    if (e.inHeaders.lookup Header.contentType).isSome then e
    else e.addInHeader Header.jsonContentType

theorem keepsRequest_forSending (e : Endpoint) : KeepsRequest e (forSending e) := by
  unfold forSending
  split
  · exact .refl e
  · dsimp only
    split <;> exact ⟨rfl, rfl, rfl⟩

/-- What is sent does not depend on the headers, nor on the rows so far. -/
theorem value_addParams {types : Types} {h : Handler} {start e : Endpoint}
    (htags : e.tags = start.tags) (hmethod : e.method = methodOf h.markers) :
    (addParams types h e).value =
      (sent? types h start).elim (forSending e) (attach (forSending e)) := by
  have params : sentParams? types h (forSending e) = sentParams? types h start := by
    rw [sentParams?, sentParams?,
      mergedParams_congr ((keepsRequest_forSending e).tags.trans htags)]
  unfold addParams sent?
  rw [← hmethod]
  by_cases hget : e.method = .get
  · have same : forSending e = e := if_pos hget
    rw [same] at params ⊢
    rw [if_pos hget, if_pos hget, value_attachParams, params]
  · have prepared : forSending e =
        if (e.inHeaders.lookup Header.contentType).isSome then { e with usesQuery := false }
        else ({ e with usesQuery := false } : Endpoint).addInHeader Header.jsonContentType :=
      if_neg hget
    rw [if_neg hget, if_neg hget]
    dsimp only
    rw [← prepared]
    cases bodyParam? h.params with
    | none => rw [value_attachParams, params]
    | some p => rw [value_attachBody]

/-- What is sent puts its rows in, whatever headers and kind of request come with it. -/
theorem requestRows_addParams {types : Types} {h : Handler} {start e : Endpoint}
    (htags : e.tags = start.tags) (hmethod : e.method = methodOf h.markers) :
    (addParams types h e).value.requestRows =
      Row.putAll e.requestRows (sentRows (sent? types h start)) := by
  rw [value_addParams htags hmethod, requestRows_attach, (keepsRequest_forSending e).requestRows]

/-! ### The rows of an endpoint -/

theorem requestRows_addResponse (types : Types) (h : Handler) (e : Endpoint) :
    (addResponse types h e).value.requestRows = e.requestRows := by
  have attached : ∀ s, (attachResponse e s).requestRows = e.requestRows := by
    intro s
    unfold attachResponse
    split
    · rfl
    · dsimp only
      split
      · rfl
      · exact requestRows_addResponseRows _ _
  unfold addResponse
  split
  · exact attached _
  · exact attached _
  · rfl

theorem requestRows_of_mem_perRoute {e e' : Endpoint} {uris : List String}
    (h : e' ∈ perRoute e uris) : e'.requestRows = e.requestRows := by
  obtain ⟨⟨uri, i⟩, -, rfl⟩ := List.mem_map.mp h
  rfl

/-- **What a handler documents of a request**: a row for every path variable, and then the rows of
what is sent. -/
def documentedRows (types : Types) (h : Handler) (e : Endpoint) : List Row :=
  pathRows e (h.params.filter isPathVariable) ++ sentRows (sent? types h e)

/-- A handler that gives endpoints has gone through all of its steps. -/
theorem steps_of_endpoints {types : Types} {baseUris : List String} {h : Handler} {e : Endpoint}
    {es : List Endpoint} (ok : (endpoints types baseUris h e).value = .ok es) :
    ∃ e₁ e₂, addPathVariables h (startOf baseUris h e) = .ok e₁ ∧
      (addHeaders types h e₁).run.value = .ok e₂ ∧
      es = perRoute (addResponse types h (addParams types h e₂).value).value
        (Uri.compose baseUris (paths h.markers)) := by
  rw [value_endpoints] at ok
  obtain ⟨e', said, done⟩ := bind_eq_ok ok
  rw [value_documented] at said
  obtain ⟨e₁, named, said⟩ := bind_eq_ok said
  obtain ⟨e₂, headers, said⟩ := bind_eq_ok said
  cases said
  cases done
  exact ⟨e₁, e₂, named, headers, rfl⟩

/-- The documented rows are put in one after another. -/
theorem requestRows_of_mem_endpoints {types : Types} {baseUris : List String} {h : Handler}
    {e : Endpoint} {es : List Endpoint} (ok : (endpoints types baseUris h e).value = .ok es) :
    (pathRows e (h.params.filter isPathVariable)).length =
      (h.params.filter isPathVariable).length ∧
    ∀ e' ∈ es, e'.requestRows = Row.putAll e.requestRows (documentedRows types h e) := by
  obtain ⟨e₁, e₂, named, headers, rfl⟩ := steps_of_endpoints ok
  have start : (startOf baseUris h e).tags = e.tags := rfl
  have rows : (startOf baseUris h e).requestRows = e.requestRows := rfl
  obtain ⟨hlength, hrows, htags, hmethod⟩ := foldlM_addPathVariable start named
  have keeps := respectsHeaders_keepsRequest.addHeaders headers
  refine ⟨hlength, fun e' he' => ?_⟩
  rw [requestRows_of_mem_perRoute he', requestRows_addResponse,
    requestRows_addParams (keeps.tags.trans htags) (keeps.method.trans hmethod),
    keeps.requestRows, hrows, rows, documentedRows, Row.putAll_append]

/-- **When a handler keeps all the rows that it documents.**  Each of its endpoints has the rows of
the path variables and then those of what is sent, in order, iff no two of these rows have one
key; and so it is for their number. -/
theorem requestRows_eq_iff_nodup (types : Types) (baseUris : List String) (h : Handler)
    (e : Endpoint) (es : List Endpoint) (start : e.requestRows = [])
    (ok : (endpoints types baseUris h e).value = .ok es) :
    ∀ e' ∈ es,
      (e'.requestRows.map Prod.snd = documentedRows types h e ↔
        ((documentedRows types h e).map Row.key).Nodup) ∧
      (e'.requestRows.length =
          (h.params.filter isPathVariable).length + (sentRows (sent? types h e)).length ↔
        ((documentedRows types h e).map Row.key).Nodup) := by
  obtain ⟨hlength, hrows⟩ := requestRows_of_mem_endpoints ok
  intro e' he'
  rw [hrows e' he', start, ← hlength, ← List.length_append]
  exact ⟨Row.putAll_eq_iff _, Row.length_putAll_eq_iff _⟩

/-- Items have an identifier among their fields. -/
def itemTypes : Types where
  chain := chain
  index := ⟨[("Item", .record ⟨"Item", [],
    [⟨"id", .named "u64", .none, none, none⟩, ⟨"name", .named "String", .none, none, none⟩]⟩)]⟩

/-- A handler that takes an item as the body, and names the item by a path variable. -/
def updateItem (key : String) : Handler where
  name := "update"
  markers := [⟨"put_mapping", [(Marker.positional, .text "/\x7bid\x7d")]⟩]
  doc := .none
  params :=
    [⟨some key, .named "String", [⟨pathVariable, []⟩]⟩,
      ⟨some "item", .named "Item", [⟨requestBody, []⟩]⟩]
  returns := none

/-- It gives a single endpoint, if it gives one endpoint at all. -/
theorem endpoints_updateItem {key : String}
    (single : ((endpoints itemTypes ["/items"] (updateItem key)
      (.new "update")).value.toOption.map List.length) = some 1) :
    ∃ e', (endpoints itemTypes ["/items"] (updateItem key) (.new "update")).value = .ok [e'] := by
  cases ok : (endpoints itemTypes ["/items"] (updateItem key) (.new "update")).value with
  | error fault =>
    rw [ok] at single
    cases single
  | ok es =>
    rw [ok] at single
    obtain ⟨e', rfl⟩ := List.length_eq_one_iff.mp (Option.some.inj single)
    exact ⟨e', rfl⟩

/-- A variable of another name than the fields has a row of its own. -/
theorem rows_kept_of_other_name :
    ∃ e', (endpoints itemTypes ["/items"] (updateItem "key") (.new "update")).value = .ok [e'] ∧
      e'.requestRows.map Prod.snd = documentedRows itemTypes (updateItem "key") (.new "update") ∧
      e'.requestRows.length = 1 + 2 := by
  obtain ⟨e', ok⟩ : ∃ e', (endpoints itemTypes ["/items"] (updateItem "key")
      (.new "update")).value = .ok [e'] := endpoints_updateItem (by decide +kernel)
  have apart : ((documentedRows itemTypes (updateItem "key")
      (.new "update")).map Row.key).Nodup := by decide +kernel
  obtain ⟨rows, count⟩ := requestRows_eq_iff_nodup itemTypes ["/items"] (updateItem "key")
    (.new "update") [e'] rfl ok e' List.mem_cons_self
  refine ⟨e', ok, rows.mpr apart, ?_⟩
  rw [count.mpr apart]
  decide +kernel

/-- **The row of a path variable may be lost**: a field of the body with the same name takes its
place. -/
theorem variable_row_lost :
    ¬ ∀ (types : Types) (baseUris : List String) (h : Handler) (e : Endpoint)
      (es : List Endpoint), e.requestRows = [] → (endpoints types baseUris h e).value = .ok es →
      ∀ e' ∈ es, e'.requestRows.map Prod.snd = documentedRows types h e := by
  intro kept
  obtain ⟨e', ok⟩ : ∃ e', (endpoints itemTypes ["/items"] (updateItem "id")
      (.new "update")).value = .ok [e'] := endpoints_updateItem (by decide +kernel)
  have rows := kept itemTypes ["/items"] (updateItem "id") (.new "update") [e'] rfl ok e'
    List.mem_cons_self
  rw [(requestRows_of_mem_endpoints ok).2 e' List.mem_cons_self] at rows
  have clash : ¬ ((documentedRows itemTypes (updateItem "id")
      (.new "update")).map Row.key).Nodup := by decide +kernel
  exact clash ((Row.putAll_eq_iff _).mp rows)

end Spring
end RouteBook
