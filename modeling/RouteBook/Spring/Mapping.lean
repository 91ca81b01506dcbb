import RouteBook.Declared.Controller
import RouteBook.Http.Method
/-! # Request mappings

Markers that make a block a controller and a function a handler, and what the mapping of a
handler says: its method, its paths, and the headers and media types it asks for.
-/
namespace RouteBook
namespace Spring

def controllerMarkers : List String := ["controller", "rest_controller"]

/-- The mapping that leaves the request method open. -/
def anyMapping : String := "request_mapping"

/-- The mappings of a single request method. -/
def methodMappings : List (String × HttpMethod) :=
  [("get_mapping", .get), ("post_mapping", .post), ("put_mapping", .put),
    ("delete_mapping", .delete), ("patch_mapping", .patch)]

def mappingMarkers : List String := anyMapping :: methodMappings.map Prod.fst

/-- Whether one of the markers has one of the names. -/
def hasAny (markers : List Marker) (names : List String) : Bool :=
  markers.any fun m => names.contains m.name

/-- Whether a block is a controller. -/
def isController (c : Controller) : Bool := hasAny c.markers controllerMarkers

/-- Whether what the handler gives back is the body of the response. -/
def givesBody (c : Controller) (h : Handler) : Bool :=
  Marker.has c.markers "rest_controller" || Marker.has c.markers "response_body"
    || Marker.has h.markers "response_body"

/-- Whether a function of a controller is a documented handler. -/
def isHandler (c : Controller) (h : Handler) : Bool :=
  givesBody c h && hasAny h.markers mappingMarkers

/-- The mapping of a handler: the first that there is. -/
def mapping? (markers : List Marker) : Option Marker :=
  markers.find? fun m => mappingMarkers.contains m.name

/-- The request method that a mapping stands for. -/
def methodOf (markers : List Marker) : HttpMethod :=
  match mapping? markers with
  | none => .get
  | some m =>
    match methodMappings.lookup m.name with
    | some method => method
    | none => ((m.texts ["method"]).findSome? HttpMethod.ofName?).getD .get

def pathKeys : List String := [Marker.positional, "path"]

/-- The texts of an argument of the mapping. -/
def mappingTexts (markers : List Marker) (keys : List String) : List String :=
  ((mapping? markers).map (·.texts keys)).getD []

/-- The paths of a handler. -/
def paths (markers : List Marker) : List String := mappingTexts markers pathKeys

/-- The paths of a controller. -/
def controllerPaths (c : Controller) : List String :=
  ((Marker.find? c.markers anyMapping).map (·.texts pathKeys)).getD []

def headerTexts (markers : List Marker) : List String := mappingTexts markers ["headers"]

/-- The media types that a handler takes. -/
def consumed (markers : List Marker) : List String := mappingTexts markers ["consumes"]

/-- The media types that a handler gives back. -/
def produced (markers : List Marker) : List String := mappingTexts markers ["produces"]

end Spring
end RouteBook
