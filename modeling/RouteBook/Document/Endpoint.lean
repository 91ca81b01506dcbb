import RouteBook.Doc.Comment
import RouteBook.Http.Method
import RouteBook.Schema.Row
/-! # Endpoints

An endpoint is what the documentation says about one route and one request method.  Headers and
rows are kept by their keys: adding one under a key that is there already replaces it where it
stands.
-/
namespace RouteBook

structure Endpoint where
  id : String
  name : String
  description : Option String
  method : HttpMethod
  uri : String
  pathVariables : List (String × String)
  inHeaders : List (String × Header)
  outHeaders : List (String × Header)
  /-- Whether parameters travel in the query string rather than in a body. -/
  usesQuery : Bool
  /-- A sample of what is sent. -/
  parameter : Option Json
  /-- A sample of what comes back. -/
  response : Option Json
  requestRows : List (String × Row)
  responseRows : List (String × Row)
  tags : List Tag
  /-- Whether the endpoint is kept out of the documents. -/
  isIgnored : Bool
  deriving Repr, Inhabited

namespace Endpoint

/-- The endpoint about which nothing but its identifier is known. -/
def new (id : String) : Endpoint where
  id := id
  name := id
  description := none
  method := .get
  uri := ""
  pathVariables := []
  inHeaders := []
  outHeaders := []
  usesQuery := true
  parameter := none
  response := none
  requestRows := []
  responseRows := []
  tags := []
  isIgnored := false

def addInHeader (e : Endpoint) (header : Header) : Endpoint :=
  { e with inHeaders := insertPair header.key header e.inHeaders }

def addOutHeader (e : Endpoint) (header : Header) : Endpoint :=
  { e with outHeaders := insertPair header.key header e.outHeaders }

def addPathVariable (e : Endpoint) (key : String) : Endpoint :=
  { e with pathVariables := insertPair key "" e.pathVariables }

def addRequestRow (e : Endpoint) (row : Row) : Endpoint :=
  { e with requestRows := insertPair row.key row e.requestRows }

def addRequestRows (e : Endpoint) (rows : List Row) : Endpoint := rows.foldl addRequestRow e

def addResponseRow (e : Endpoint) (row : Row) : Endpoint :=
  { e with responseRows := insertPair row.key row e.responseRows }

def addResponseRows (e : Endpoint) (rows : List Row) : Endpoint := rows.foldl addResponseRow e

/-- The tag that documents a parameter. -/
def param? (e : Endpoint) (name : String) : Option Tag := Tag.find? e.tags .param name

/-- The first tag with the given name. -/
def named? (e : Endpoint) (name : String) : Option Tag := Tag.find? e.tags .named name

def hasRequestBody (e : Endpoint) : Bool := !e.usesQuery && e.parameter.isSome

def hasResponseBody (e : Endpoint) : Bool := e.response.isSome

/-- A value in a query string. -/
def queryValue : Json → String
  | .text s => s
  | .null => ""
  | value => value.compact

/-- The query string, if there are parameters in it. -/
def query (e : Endpoint) : String :=
  match e.usesQuery, e.parameter with
  | true, some (.object []) => ""
  | true, some (.object members) =>
    "?" ++ Text.joined "&" (members.map fun (key, value) => key ++ "=" ++ queryValue value)
  | _, _ => ""

/-- Method, route and query: `GET /users?page=0`. -/
def requestLine (e : Endpoint) : String := e.method.name ++ " " ++ e.uri ++ e.query

/-- A sample value over several lines, and nothing at all if there is none. -/
def sampleText (sample : Option Json) : String := (sample.map Json.pretty).getD ""

def parameterText (e : Endpoint) : String := sampleText e.parameter

def responseText (e : Endpoint) : String := sampleText e.response

end Endpoint
end RouteBook
