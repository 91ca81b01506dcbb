import RouteBook.Extract.Dialect
import RouteBook.Http.Uri
import RouteBook.Spring.Components
import RouteBook.Spring.Mapping
import RouteBook.Spring.Params
/-! # Endpoints of handlers

A handler gives one endpoint for every route that its mapping names.  Path variables and headers
must have names; without them the handler gives no endpoint at all.  Request parameters are
merged into a single object, which travels in the query of a `GET` request and in the body of
any other, unless a parameter is marked as the body.
-/
namespace RouteBook
namespace Spring

/-- Documenting a handler: it warns, and it may stop. -/
abbrev Visit := ExceptT MissingData Logged

/-- What a tag says about a parameter.  The name that the parameter binds is looked up first. -/
def paramRemark? (e : Endpoint) (p : HandlerParam) (key : String) : Option String :=
  let tag := (p.name.bind e.param?).or (e.param? key)
  (tag.map (·.content)).filter (· ≠ "")

/-! ### Path variables -/

/-- The row of a path variable. -/
def pathRow (e : Endpoint) (p : HandlerParam) (key : String) : Row :=
  ⟨key, p.type.text, "required", none, paramRemark? e p key⟩

def addPathVariable (h : Handler) (e : Endpoint) (p : HandlerParam) :
    Except MissingData Endpoint :=
  match clientName? p pathVariable with
  | some key => .ok ((e.addPathVariable key).addRequestRow (pathRow e p key))
  | none => .error ⟨h.name, .unnamedPathVariable⟩

def addPathVariables (h : Handler) (e : Endpoint) : Except MissingData Endpoint :=
  (h.params.filter isPathVariable).foldlM (addPathVariable h) e

/-! ### Headers -/

/-- The headers that the mapping declares. -/
def addMappingHeaders (h : Handler) (e : Endpoint) : Endpoint :=
  let e := ((headerTexts h.markers).filterMap Header.parse?).foldl Endpoint.addInHeader e
  let consumes := consumed h.markers
  let e := if consumes.isEmpty then e
    else e.addInHeader ⟨Header.contentType, Text.joined "," consumes⟩
  let produces := produced h.markers
  if produces.isEmpty then e
  else e.addOutHeader ⟨Header.contentType, Text.joined "," produces⟩

/-- The text of a scalar, unless it is blank. -/
def scalarText? (value : Json) : Option String :=
  let text := match value with
    | .text s => some s
    | .number n => some (Json.number n).compact
    | .bool b => some (Json.bool b).compact
    | _ => none
  text.filter fun s => !Text.blank s

/-- The value that is shown for a header: what the marker says, or else a placeholder.  A blank
value gives way to a sample of the type. -/
def headerValue (p : HandlerParam) (s : Schema) : String :=
  let said := (Marker.find? p.markers requestHeader).bind (·.text? ["default_value"])
  let value := said.getD "\x7bvalue\x7d"
  if Text.blank value then (scalarText? s.sample).getD value else value

def addHeader (types : Types) (h : Handler) (e : Endpoint) (p : HandlerParam) :
    Visit Endpoint := do
  match clientName? p requestHeader with
  | none => throw ⟨h.name, .unnamedHeader⟩
  | some key =>
    let s ← types.resolve p.type
    if !s.isAvailable then
      Logged.warn (.unresolvedHeader p.type key h.name)
      return e
    return e.addInHeader ⟨key, headerValue p s⟩

def addHeaders (types : Types) (h : Handler) (e : Endpoint) : Visit Endpoint :=
  (h.params.filter isRequestHeader).foldlM (addHeader types h) (addMappingHeaders h e)

/-! ### Parameters -/

/-- A parameter whose value is no object, as a field under the given key. -/
def paramField (e : Endpoint) (p : HandlerParam) (key : String) (s : Schema) : Schema :=
  let s := match paramRemark? e p key with
    | some remark => s.addRemark remark
    | none => s
  let s := match (Marker.find? p.markers requestParam).bind (·.text? ["default_value"]) with
    | some written => s.setFallback written
    | none => s
  s.withKey key

/-- The schema with what the marker of the parameter says about being required. -/
def applyRequired (p : HandlerParam) (s : Schema) : Schema :=
  match (Marker.find? p.markers requestParam).bind (·.bool? ["required"]) with
  | some required => s.withRequired required
  | none => s

/-- Adds a request parameter to the object of those before it. -/
def mergeParam (types : Types) (h : Handler) (e : Endpoint) (merged : Schema)
    (p : HandlerParam) : Logged Schema := do
  let s ← types.resolve p.type
  if !s.isAvailable then
    Logged.warn (.unresolvedParam p.type p.name h.name)
    return merged
  let s := applyRequired p s
  if s.isObject then return merged.merge s
  match clientName? p requestParam with
  | some key => return merged.addField (paramField e p key s)
  | none =>
    Logged.warn (.unnamedParam p.type h.name)
    return merged

/-- All request parameters as one object. -/
def mergedParams (types : Types) (h : Handler) (e : Endpoint) : Logged Schema :=
  (h.params.filter isRequestParam).foldlM (mergeParam types h e) (.emptyObject "")

/-- Adds what is sent to an endpoint. -/
def attach (e : Endpoint) (s : Schema) : Endpoint :=
  { e with parameter := some s.sample }.addRequestRows s.rows

/-- Adds the request parameters, if there are any. -/
def attachParams (types : Types) (h : Handler) (e : Endpoint) : Logged Endpoint := do
  let merged ← mergedParams types h e
  match merged.fields? with
  | some (_ :: _) => return attach e merged
  | _ => return e

/-- Adds the parameter that is the body. -/
def attachBody (types : Types) (h : Handler) (e : Endpoint) (p : HandlerParam) :
    Logged Endpoint := do
  let s ← types.resolve p.type
  if !s.isAvailable then
    Logged.warn (.unresolvedBody p.type h.name)
    return e
  match s.isScalar, p.name with
  | true, some name => return attach e (s.withKey name)
  | _, _ => return attach e s

/-- Adds what is sent with a request.  A request with a body has a content type. -/
def addParams (types : Types) (h : Handler) (e : Endpoint) : Logged Endpoint :=
  if e.method = .get then attachParams types h e
  else
    let e := { e with usesQuery := false }
    let e := if (e.inHeaders.lookup Header.contentType).isSome then e
      else e.addInHeader Header.jsonContentType
    match bodyParam? h.params with
    | some p => attachBody types h e p
    | none => attachParams types h e

/-! ### Responses -/

/-- The type that a handler names for its response, if it does. -/
def responseType? (h : Handler) : Option String :=
  (Marker.find? h.markers "response_type").bind (·.text? [Marker.positional])

/-- Adds what comes back. -/
def attachResponse (e : Endpoint) (s : Schema) : Endpoint :=
  if !s.isAvailable then e
  else
    let e := { e with response := some s.sample }
    if s.isScalar then e else e.addResponseRows s.rows

/-- Adds the response.  A type that is named goes before the one that is declared. -/
def addResponse (types : Types) (h : Handler) (e : Endpoint) : Logged Endpoint := do
  match responseType? h, h.returns with
  | some name, _ => return attachResponse e (← types.resolveName name)
  | none, some t => return attachResponse e (← types.resolve t)
  | none, none => return e

/-! ### Routes -/

/-- The identifier of the endpoint for route number `i`. -/
def routeId (id : String) (i : Nat) : String := if i = 0 then id else id ++ "_" ++ toString (i + 1)

/-- One endpoint for every route. -/
def perRoute (e : Endpoint) (uris : List String) : List Endpoint :=
  uris.zipIdx.map fun (uri, i) => { e with id := routeId e.id i, uri := uri }

/-- The endpoints of a handler. -/
def endpoints (types : Types) (baseUris : List String) (h : Handler) (e : Endpoint) :
    Logged (Except MissingData (List Endpoint)) := ExceptT.run do
  let uris := Uri.compose baseUris (paths h.markers)
  let e := { e with method := methodOf h.markers, uri := uris.headD e.uri }
  let e ← (addPathVariables h e : Except MissingData Endpoint)
  let e ← addHeaders types h e
  let e ← addParams types h e
  let e ← addResponse types h e
  return perRoute e uris

/-- The framework as a dialect. -/
def dialect : Dialect where
  chain := chain
  isController := isController
  isHandler := isHandler
  paths := controllerPaths
  endpoints := endpoints

end Spring
end RouteBook
