import Mathlib.Data.List.Induction
import RouteBook.Extract.Build
import RouteBook.Proofs.Spring.MergedParams
/-! # The shape of a request

The request method of a handler decides where its parameters travel: in the query of a `GET` request,
and in the body of any other.  Method, headers and what is sent are settled in separate steps, each
of which goes on with what the steps before it have left.  Read as equations, these steps say what
the request of an endpoint is, without any of them in between (`request_of_mem_endpoints`).

Headers are put in by their keys, so the last one under a key is the one that stays
(`Header.lookup_putAll`).  That is why the content type of a request is the last one that is declared,
and JSON only if there is none.  Request parameters are sent as an object with a field at least, since
nothing is sent without a field (`sample_of_sentParams?`).
-/
namespace RouteBook

/-! ### Headers by their keys -/

namespace Header

/-- Puts headers one after another into a table by their keys. -/
def putAll (table : List (String × Header)) (headers : List Header) : List (String × Header) :=
  headers.foldl (fun table header => insertPair header.key header table) table

theorem putAll_append (table : List (String × Header)) (headers more : List Header) :
    putAll table (headers ++ more) = putAll (putAll table headers) more :=
  List.foldl_append

/-- **The last header under a key stays**; without one, what was there before. -/
theorem lookup_putAll (table : List (String × Header)) (headers : List Header) (key : String) :
    (putAll table headers).lookup key =
      (headers.filter fun header => header.key == key).getLast?.or (table.lookup key) := by
  induction headers using List.reverseRecOn with
  | nil => rfl
  | append_singleton headers header ih =>
    rw [putAll_append, List.filter_append]
    show (insertPair header.key header (putAll table headers)).lookup key = _
    by_cases same : header.key = key
    · rw [List.filter_cons_of_pos (by simpa using same), List.filter_nil, List.getLast?_concat,
        ← same, lookup_insertPair_self]
      rfl
    · rw [List.filter_cons_of_neg (by simpa using same), List.filter_nil, List.append_nil,
        lookup_insertPair_of_ne (Ne.symm same), ih]

end Header

/-! ### Requests -/

/-- What an endpoint says about its request, apart from the route and from the rows. -/
structure Request where
  method : HttpMethod
  usesQuery : Bool
  inHeaders : List (String × Header)
  parameter : Option Json

/-- A request with more headers. -/
def Request.putHeaders (r : Request) (headers : List Header) : Request :=
  { r with inHeaders := Header.putAll r.inHeaders headers }

theorem Request.putHeaders_putHeaders (r : Request) (headers more : List Header) :
    (r.putHeaders headers).putHeaders more = r.putHeaders (headers ++ more) := by
  rw [putHeaders, putHeaders, putHeaders, Header.putAll_append]

namespace Endpoint

def request (e : Endpoint) : Request := ⟨e.method, e.usesQuery, e.inHeaders, e.parameter⟩

/-- Nothing is said yet about what is sent. -/
structure IsUnsent (e : Endpoint) : Prop where
  usesQuery : e.usesQuery = true
  inHeaders : e.inHeaders = []
  parameter : e.parameter = none

theorem request_addRequestRows (e : Endpoint) (rows : List Row) :
    (e.addRequestRows rows).request = e.request := by
  induction rows generalizing e with
  | nil => rfl
  | cons row rows ih => exact ih (e.addRequestRow row)

theorem request_addResponseRows (e : Endpoint) (rows : List Row) :
    (e.addResponseRows rows).request = e.request := by
  induction rows generalizing e with
  | nil => rfl
  | cons row rows ih => exact ih (e.addResponseRow row)

theorem request_foldl_addInHeader (e : Endpoint) (headers : List Header) :
    (headers.foldl addInHeader e).request = e.request.putHeaders headers := by
  induction headers generalizing e with
  | nil => rfl
  | cons header headers ih => exact ih (e.addInHeader header)

end Endpoint

/-- The endpoint of a handler starts with nothing but the documentation. -/
theorem Extract.isUnsent_endpointFor (h : Handler) : (endpointFor h).IsUnsent := ⟨rfl, rfl, rfl⟩

namespace Spring
open Endpoint

/-! ### Path variables -/

theorem request_addPathVariable {h : Handler} {e e' : Endpoint} {p : HandlerParam}
    (ok : addPathVariable h e p = .ok e') : e'.request = e.request := by
  unfold addPathVariable at ok
  split at ok
  · cases ok
    rfl
  · cases ok

theorem request_addPathVariables {h : Handler} {e e' : Endpoint}
    (ok : addPathVariables h e = .ok e') : e'.request = e.request := by
  unfold addPathVariables at ok
  generalize h.params.filter isPathVariable = ps at ok
  induction ps generalizing e with
  | nil =>
    cases ok
    rfl
  | cons p ps ih =>
    rw [List.foldlM_cons] at ok
    obtain ⟨next, step, rest⟩ := bind_eq_ok ok
    rw [ih rest, request_addPathVariable step]

/-! ### Declared headers -/

/-- The content type of what a handler takes, if it says so. -/
def consumedHeaders (h : Handler) : List Header :=
  if (consumed h.markers).isEmpty then []
  else [⟨Header.contentType, Text.joined "," (consumed h.markers)⟩]

/-- The header of a parameter, if it has a name and a known type. -/
def paramHeader? (types : Types) (p : HandlerParam) : Option Header :=
  (clientName? p requestHeader).bind fun key =>
    let s := (types.resolve p.type).value
    if s.isAvailable then some ⟨key, headerValue p s⟩ else none

/-- **The headers that a handler declares**: those of its mapping, what it consumes, and its header
parameters. -/
def declaredHeaders (types : Types) (h : Handler) : List Header :=
  (headerTexts h.markers).filterMap Header.parse? ++ consumedHeaders h ++
    (h.params.filter isRequestHeader).filterMap (paramHeader? types)

/-- The content types among them. -/
def declaredContentTypes (types : Types) (h : Handler) : List Header :=
  (declaredHeaders types h).filter fun header => header.key == Header.contentType

theorem request_addMappingHeaders (h : Handler) (e : Endpoint) :
    (addMappingHeaders h e).request =
      e.request.putHeaders
        ((headerTexts h.markers).filterMap Header.parse? ++ consumedHeaders h) := by
  -- headers of the response do not count
  have produces : ∀ e' : Endpoint, (if (produced h.markers).isEmpty then e'
      else e'.addOutHeader ⟨Header.contentType, Text.joined "," (produced h.markers)⟩).request =
        e'.request := by
    intro e'
    split <;> rfl
  unfold addMappingHeaders consumedHeaders
  dsimp only
  rw [produces, ← Request.putHeaders_putHeaders, ← request_foldl_addInHeader]
  split <;> rfl

/-- A handler that can be documented puts in the headers of its parameters one after another. -/
theorem request_foldlM_addHeader {types : Types} {h : Handler} {ps : List HandlerParam}
    {e e' : Endpoint} (ok : ps.foldlM (fun e p => (addHeader types h e p).run.value) e = .ok e') :
    e'.request = e.request.putHeaders (ps.filterMap (paramHeader? types)) := by
  induction ps generalizing e with
  | nil =>
    cases ok
    rfl
  | cons p ps ih =>
    rw [List.foldlM_cons, value_addHeader] at ok
    cases named : clientName? p requestHeader with
    | none =>
      rw [named] at ok
      cases ok
    | some key =>
      rw [named] at ok
      rw [ih ok, List.filterMap_cons, paramHeader?, named, Option.bind_some]
      dsimp only
      cases (types.resolve p.type).value.isAvailable with
      | false => rfl
      | true => rfl

theorem request_addHeaders {types : Types} {h : Handler} {e e' : Endpoint}
    (ok : (addHeaders types h e).run.value = .ok e') :
    e'.request = e.request.putHeaders (declaredHeaders types h) := by
  unfold addHeaders at ok
  rw [Visit.value_foldlM] at ok
  rw [request_foldlM_addHeader ok, request_addMappingHeaders, Request.putHeaders_putHeaders,
    declaredHeaders]

/-! ### What is sent -/

theorem request_attach (e : Endpoint) (sent? : Option Schema) (unsent : e.parameter = none) :
    (sent?.elim e (attach e)).request = { e.request with parameter := sent?.map Schema.sample } := by
  cases sent? with
  | none =>
    show e.request = _
    rw [Option.map_none, ← unsent]
    rfl
  | some s => exact request_addRequestRows _ _

/-- **Request parameters are sent as an object with a field at least.** -/
theorem sample_of_sentParams? {types : Types} {h : Handler} {e : Endpoint} {s : Schema}
    (sent : sentParams? types h e = some s) :
    ∃ member members, s.sample = .object (member :: members) := by
  unfold sentParams? at sent
  rw [value_mergedParams] at sent
  dsimp only at sent
  generalize Schema.Contribution.run [] _ = fields at sent
  cases fields with
  | nil => cases sent
  | cons field fields =>
    cases sent
    -- without a fallback, the sample is made of the fields
    exact ⟨(field.1, field.2.sample), Schema.sampleFields fields, rfl⟩

/-! ### What comes after it -/

theorem request_addResponse (types : Types) (h : Handler) (e : Endpoint) :
    (addResponse types h e).value.request = e.request := by
  have attached : ∀ s, (attachResponse e s).request = e.request := by
    intro s
    unfold attachResponse
    split
    · rfl
    · dsimp only
      split
      · rfl
      · exact request_addResponseRows _ _
  unfold addResponse
  split
  · exact attached _
  · exact attached _
  · rfl

theorem request_of_mem_perRoute {e e' : Endpoint} {uris : List String}
    (h : e' ∈ perRoute e uris) : e'.request = e.request := by
  obtain ⟨⟨uri, i⟩, -, rfl⟩ := List.mem_map.mp h
  rfl

/-! ### The request of an endpoint -/

/-- The headers of a request: those that are declared, and a content type if a body may come with it
and none is declared. -/
def sentHeaders (types : Types) (h : Handler) : List Header :=
  if methodOf h.markers = .get ∨ declaredContentTypes types h ≠ [] then declaredHeaders types h
  else declaredHeaders types h ++ [Header.jsonContentType]

/-- **The request that a handler documents.** -/
def requestOf (types : Types) (h : Handler) (e : Endpoint) : Request where
  method := methodOf h.markers
  usesQuery := methodOf h.markers = .get
  inHeaders := Header.putAll [] (sentHeaders types h)
  parameter := (sent? types h e).map Schema.sample

/-- The content type of a request: the last one that is declared, and for a request that may have a
body, JSON if none is. -/
theorem lookup_sentHeaders (types : Types) (h : Handler) :
    (Header.putAll [] (sentHeaders types h)).lookup Header.contentType =
      (declaredContentTypes types h).getLast?.or
        (if methodOf h.markers = .get then none else some Header.jsonContentType) := by
  rw [Header.lookup_putAll, List.lookup_nil, Option.or_none, sentHeaders]
  by_cases hget : methodOf h.markers = .get
  · rw [if_pos (.inl hget), if_pos hget, Option.or_none, declaredContentTypes]
  · rw [if_neg hget]
    cases declared : declaredContentTypes types h with
    | nil =>
      rw [if_neg (by simpa using hget), List.filter_append, ← declaredContentTypes, declared]
      rfl
    | cons header headers =>
      rw [if_pos (.inr (List.cons_ne_nil _ _)), ← declaredContentTypes, declared,
        List.getLast?_cons, Option.some_or]

/-- What is not a `GET` request gets a content type iff it has none. -/
theorem request_forSending {types : Types} {h : Handler} {e : Endpoint}
    (said : e.request =
      ⟨methodOf h.markers, true, Header.putAll [] (declaredHeaders types h), none⟩) :
    (forSending e).request =
      ⟨methodOf h.markers, methodOf h.markers = .get, Header.putAll [] (sentHeaders types h),
        none⟩ := by
  have method : e.method = methodOf h.markers := congrArg Request.method said
  have inHeaders : e.inHeaders = Header.putAll [] (declaredHeaders types h) :=
    congrArg Request.inHeaders said
  have parameter : e.parameter = none := congrArg Request.parameter said
  have isSome : (e.inHeaders.lookup Header.contentType).isSome ↔
      declaredContentTypes types h ≠ [] := by
    rw [inHeaders, Header.lookup_putAll, List.lookup_nil, Option.or_none,
      Option.isSome_iff_ne_none, Ne, List.getLast?_eq_none_iff, declaredContentTypes]
  unfold forSending sentHeaders
  rw [method]
  by_cases hget : methodOf h.markers = .get
  · rw [if_pos hget, if_pos (.inl hget), said, decide_eq_true hget]
  · rw [if_neg hget, decide_eq_false hget]
    by_cases declared : declaredContentTypes types h = []
    · have none : ¬ (methodOf h.markers = .get ∨ declaredContentTypes types h ≠ []) := by
        rintro (get | some)
        · exact hget get
        · exact some declared
      dsimp only
      rw [if_neg (fun some => isSome.mp some declared), if_neg none, Header.putAll_append,
        ← inHeaders, ← method, ← parameter]
      rfl
    · dsimp only
      rw [if_pos (isSome.mpr declared), if_pos (.inr declared), ← inHeaders, ← method, ← parameter]
      rfl

/-- **The request of an endpoint can be read off its handler.** -/
theorem request_of_mem_endpoints {types : Types} {baseUris : List String} {h : Handler}
    {e : Endpoint} {es : List Endpoint} (unsent : e.IsUnsent)
    (ok : (endpoints types baseUris h e).value = .ok es) :
    ∀ e' ∈ es, e'.request = requestOf types h e := by
  obtain ⟨e₁, e₂, named, headers, rfl⟩ := steps_of_endpoints ok
  have start : (startOf baseUris h e).tags = e.tags := rfl
  obtain ⟨-, -, htags, -⟩ := foldlM_addPathVariable start named
  have keeps := respectsHeaders_keepsRequest.addHeaders headers
  have said : e₂.request =
      ⟨methodOf h.markers, true, Header.putAll [] (declaredHeaders types h), none⟩ := by
    rw [request_addHeaders headers, request_addPathVariables named]
    show (⟨methodOf h.markers, e.usesQuery, Header.putAll e.inHeaders _, e.parameter⟩ : Request) = _
    rw [unsent.usesQuery, unsent.inHeaders, unsent.parameter]
  have ready := request_forSending said
  intro e' he'
  rw [request_of_mem_perRoute he', request_addResponse,
    value_addParams (keeps.tags.trans htags) (congrArg Request.method said),
    request_attach _ _ (congrArg Request.parameter ready), ready, requestOf]

/-! ### Its shape -/

/-- **What a request looks like.**  The parameters of a `GET` request are in its query, and only other
requests have a body.  What is sent is an object with a field at least, unless a parameter is marked
as the body.  The content type is the last one that is declared, and if none is, JSON for a request
that may have a body, and none for a `GET` request. -/
structure IsShaped (types : Types) (h : Handler) (e : Endpoint) : Prop where
  method : e.method = methodOf h.markers
  usesQuery : e.usesQuery = true ↔ e.method = .get
  hasRequestBody : e.hasRequestBody = true → e.method ≠ .get
  parameter : ∀ sample, e.parameter = some sample →
    e.method = .get ∨ (∀ p ∈ h.params, isRequestBody p = false) →
    ∃ member members, sample = .object (member :: members)
  contentType : e.method ≠ .get → e.inHeaders.lookup Header.contentType =
    some ((declaredContentTypes types h).getLast?.getD Header.jsonContentType)
  contentType_get : e.method = .get →
    e.inHeaders.lookup Header.contentType = (declaredContentTypes types h).getLast?

/-- What is sent without a body is sent as request parameters. -/
theorem sentParams?_of_sent? {types : Types} {h : Handler} {e : Endpoint} {s : Schema}
    (sent : sent? types h e = some s)
    (plain : methodOf h.markers = .get ∨ ∀ p ∈ h.params, isRequestBody p = false) :
    sentParams? types h e = some s := by
  unfold sent? at sent
  by_cases hget : methodOf h.markers = .get
  · rwa [if_pos hget] at sent
  · have none : bodyParam? h.params = none := by
      refine List.find?_eq_none.mpr fun p hp => ?_
      rw [plain.resolve_left hget p hp]
      exact Bool.false_ne_true
    rwa [if_neg hget, none] at sent

/-- **Every request that a handler documents has this shape**, whatever types there are and however
mapping, headers and parameters come together. -/
theorem request_isShaped (types : Types) (baseUris : List String) (h : Handler) (e : Endpoint)
    (es : List Endpoint) (unsent : e.IsUnsent)
    (ok : (endpoints types baseUris h e).value = .ok es) :
    ∀ e' ∈ es, IsShaped types h e' := by
  intro e' he'
  have request := request_of_mem_endpoints unsent ok e' he'
  have method : e'.method = methodOf h.markers := congrArg Request.method request
  have query : e'.usesQuery = decide (methodOf h.markers = .get) :=
    congrArg Request.usesQuery request
  have usesQuery : e'.usesQuery = true ↔ e'.method = .get := by
    rw [query, method, decide_eq_true_iff]
  have contentType : e'.inHeaders.lookup Header.contentType =
      (declaredContentTypes types h).getLast?.or
        (if e'.method = .get then none else some Header.jsonContentType) := by
    have inHeaders : e'.inHeaders = Header.putAll [] (sentHeaders types h) :=
      congrArg Request.inHeaders request
    rw [inHeaders, lookup_sentHeaders, method]
  refine ⟨method, usesQuery, ?_, ?_, ?_, ?_⟩
  · intro body get
    rw [hasRequestBody, usesQuery.mpr get] at body
    cases body
  · intro sample given plain
    have samples : (sent? types h e).map Schema.sample = some sample :=
      (congrArg Request.parameter request).symm.trans given
    obtain ⟨s, sent, rfl⟩ := Option.map_eq_some_iff.mp samples
    rw [method] at plain
    exact sample_of_sentParams? (sentParams?_of_sent? sent plain)
  · intro other
    rw [contentType, if_neg other]
    cases (declaredContentTypes types h).getLast? <;> rfl
  · intro get
    rw [contentType, if_pos get, Option.or_none]

/-- An item that is put in place of another one is JSON, as nothing else is said. -/
theorem updateItem_sends_json :
    ∃ e', (endpoints itemTypes ["/items"] (updateItem "key") (.new "update")).value = .ok [e'] ∧
      e'.usesQuery = false ∧
      e'.inHeaders.lookup Header.contentType = some Header.jsonContentType := by
  obtain ⟨e', ok⟩ : ∃ e', (endpoints itemTypes ["/items"] (updateItem "key")
      (.new "update")).value = .ok [e'] := endpoints_updateItem (by decide +kernel)
  have shaped : IsShaped itemTypes (updateItem "key") e' :=
    request_isShaped itemTypes ["/items"] (updateItem "key") (.new "update") [e'] ⟨rfl, rfl, rfl⟩ ok
      e' List.mem_cons_self
  have other : e'.method ≠ .get := by
    rw [shaped.method]
    decide
  have undeclared : declaredContentTypes itemTypes (updateItem "key") = [] := by decide +kernel
  refine ⟨e', ok, ?_, ?_⟩
  · exact Bool.eq_false_iff.mpr fun query => other (shaped.usesQuery.mp query)
  · rw [shaped.contentType other, undeclared]
    rfl

end Spring
end RouteBook
