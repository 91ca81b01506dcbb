import RouteBook.Declared.Controller
/-! # Parameters of handlers

A marker says where the value of a parameter comes from.  A parameter without such a marker is a
request parameter, unless its type shows that the framework supplies it.
-/
namespace RouteBook
namespace Spring

def pathVariable : String := "path_variable"
def requestParam : String := "request_param"
def requestBody : String := "request_body"
def requestHeader : String := "request_header"

def paramMarkers : List String := [pathVariable, requestParam, requestBody, requestHeader]

/-- Types of what the framework supplies. -/
def injectedTypes : List String :=
  ["HttpRequest", "HttpResponse", "HttpServletRequest", "HttpServletResponse", "HttpSession",
    "Request", "Response", "WebRequest", "HeaderMap", "State", "Extension", "Data", "Session",
    "Principal", "Authentication", "Model", "ModelMap", "BindingResult", "Errors", "Locale"]

def isPathVariable (p : HandlerParam) : Bool := Marker.has p.markers pathVariable

def isRequestBody (p : HandlerParam) : Bool := Marker.has p.markers requestBody

def isRequestHeader (p : HandlerParam) : Bool := Marker.has p.markers requestHeader

def isRequestParam (p : HandlerParam) : Bool :=
  Marker.has p.markers requestParam
    || (!(p.markers.any fun m => paramMarkers.contains m.name)
      && !injectedTypes.contains p.type.name)

/-- The parameter that is the body of the request. -/
def bodyParam? (ps : List HandlerParam) : Option HandlerParam := ps.find? isRequestBody

/-- The name under which clients know a parameter: what the marker says, or else the name that
the parameter binds. -/
def clientName? (p : HandlerParam) (marker : String) : Option String :=
  let said := (Marker.find? p.markers marker).bind (·.text? [Marker.positional, "name"])
  (said.filter fun name => !Text.blank name).or p.name

end Spring
end RouteBook
