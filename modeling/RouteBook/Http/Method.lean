import RouteBook.Text.Pieces
/-! # Request methods and headers -/
namespace RouteBook

/-- A request method. -/
inductive HttpMethod where
  | get
  | post
  | put
  | delete
  | patch
  | head
  | options
  | trace
  deriving DecidableEq, Repr, Inhabited

namespace HttpMethod

def all : List HttpMethod := [.get, .post, .put, .delete, .patch, .head, .options, .trace]

/-- The method as it stands in a request line. -/
def name : HttpMethod → String
  | .get => "GET"
  | .post => "POST"
  | .put => "PUT"
  | .delete => "DELETE"
  | .patch => "PATCH"
  | .head => "HEAD"
  | .options => "OPTIONS"
  | .trace => "TRACE"

/-- The method with the given name, in upper or lower case or a mix of both. -/
def ofName? (name : String) : Option HttpMethod :=
  all.find? fun m => m.name.toList = name.toList.map Char.toUpper

end HttpMethod

/-- A request or response header. -/
structure Header where
  key : String
  value : String
  deriving DecidableEq, Repr, Inhabited

namespace Header

def contentType : String := "Content-Type"

def applicationJson : String := "application/json"

def jsonContentType : Header := ⟨contentType, applicationJson⟩

/-- Reads `X-Version=2` or `Accept: text/plain`.  The name ends at the first equals sign or
colon, and a name alone has the empty value.  There is no header without a name. -/
def parse? (text : String) : Option Header :=
  let cs := text.toList
  let (key, value) := (Text.cutAt? (fun c => c = '=' || c = ':') cs).getD (cs, [])
  let key := Text.trim key
  if key = [] then none else some ⟨String.ofList key, String.ofList (Text.trim value)⟩

/-- The header as it stands in a request. -/
def text (header : Header) : String := header.key ++ ": " ++ header.value

end Header
end RouteBook
