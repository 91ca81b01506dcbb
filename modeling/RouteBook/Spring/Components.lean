import RouteBook.Describe.Chain
/-! # Types of the framework

Wrappers around requests and responses, uploaded files, and pages of results.  A declared type
with the name of a page goes before.
-/
namespace RouteBook
namespace Spring

/-- Types that are written as what they hold. -/
def transparent : List String :=
  ["Json", "ResponseEntity", "HttpEntity", "Result", "Query", "Form"]

def fileTypes : List String := ["MultipartFile", "Part", "Multipart"]

/-- Names of collections in a response type that is given as text. -/
def sequenceNames : List String := ["List", "Set", "Collection", "Iterable"]

/-- A number with a remark. -/
def counter (key type remark : String) : Schema :=
  ((Schema.ofPrimitive type (.ofInt 0)).withKey key).addRemark remark

/-- The fields that count the items of a page. -/
def pageCounters : List Schema :=
  [counter "totalElements" "i64" "total number of items",
    counter "totalPages" "u32" "total number of pages",
    counter "number" "u32" "zero-based page index",
    counter "size" "u32" "page size"]

/-- A page of items. -/
def page (t : TypeTerm) (item : Schema) : Schema :=
  let content := ((Schema.ofElement item).withKey "content").addRemark "items of the current page"
  (content :: pageCounters).foldl Schema.addField (.emptyObject t.text)

/-- The parameters that ask for a page. -/
def pageable : Schema :=
  let page := ((counter "page" "u32" "zero-based page index").withRequired false).setFallback "0"
  let size := ((counter "size" "u32" "page size").withRequired false).setFallback "20"
  let sort := (((Schema.ofText "String" "").withKey "sort").withRequired false).addRemark
    "property,(asc|desc)"
  [page, size, sort].foldl Schema.addField (.emptyObject "Pageable")

/-- The resolver for the types of the framework. -/
def component : Resolver := fun scope t =>
  if t.isArray then Resolver.unknown t
  else if transparent.contains t.name then
    match t.first? with
    | some inner => scope.resolve inner
    | none => Resolver.unknown t
  else if fileTypes.contains t.name then
    return (Schema.ofText "File" "").addRemark "multipart file"
  else if (scope.index.find? t.name).isSome then Resolver.unknown t
  else if t.name = "Page" then
    match t.first? with
    | some inner => do
      let item ← scope.resolve inner
      if item.isAvailable then return page t item else Resolver.unknown t
    | none => Resolver.unknown t
  else if t.name = "Pageable" && t.args.isEmpty then return pageable
  else Resolver.unknown t

/-- The name without a pair of brackets at its end. -/
def elementName? (name : String) : Option String :=
  match name.toList.reverse with
  | ']' :: '[' :: front => some (String.ofList front.reverse)
  | _ => none

/-- The resolver for names of arrays and of collections. -/
def componentName : NameResolver := fun scope name => do
  let name := Text.trimmed name
  match elementName? name with
  | some element =>
    let s ← scope.resolveName element
    return if s.isAvailable then .ofElement s else .unavailable name
  | none =>
    match TypeTerm.parse? name with
    | some t =>
      if sequenceNames.contains t.name && t.args.length == 1 then
        scope.resolve (.applied "Vec" t.args)
      else return .unavailable name
    | none => return .unavailable name

/-- The chain of resolvers with those of the framework. -/
def chain : Chain := ⟨[component], [componentName]⟩

end Spring
end RouteBook
