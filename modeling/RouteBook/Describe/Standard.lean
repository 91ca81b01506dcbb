import RouteBook.Describe.Resolver
/-! # Types of the standard library

Numbers and texts, options, collections, maps, and the pointers and cells that are written as
what they hold.
-/
namespace RouteBook
namespace Standard

def integers : List String :=
  ["i8", "i16", "i32", "i64", "i128", "isize", "u8", "u16", "u32", "u64", "u128", "usize"]

def floats : List String := ["f32", "f64"]

/-- Types that are written as texts. -/
def textLike : List String :=
  ["String", "str", "char", "Uuid", "DateTime", "NaiveDate", "NaiveDateTime", "NaiveTime",
    "Decimal", "Url", "PathBuf", "OsString", "IpAddr", "SocketAddr"]

def collections : List String :=
  ["Vec", "VecDeque", "LinkedList", "HashSet", "BTreeSet", "IndexSet", "BinaryHeap"]

def maps : List String := ["HashMap", "BTreeMap", "IndexMap", "Map", "Value"]

/-- Types that are written as what they hold. -/
def wrappers : List String :=
  ["Box", "Rc", "Arc", "Cow", "RefCell", "Cell", "Mutex", "RwLock"]

/-- Whether a type, no array, has one of the given names. -/
def isOneOf (t : TypeTerm) (names : List String) : Bool := !t.isArray && names.contains t.name

/-- Integers, floating point numbers and truth values. -/
def primitive : Resolver := fun _ t =>
  if isOneOf t integers then return .ofPrimitive t.name (.ofInt 0)
  else if isOneOf t floats then
    return .ofPrimitive t.name (.number (.double (.nearest false 0 1)))
  else if isOneOf t ["bool"] then return .ofPrimitive t.name (.bool false)
  else Resolver.unknown t

def text : Resolver := fun _ t =>
  if isOneOf t textLike then
    return .ofText (if t.name = "str" then "String" else t.name) ""
  else Resolver.unknown t

/-- An option is its content, not required. -/
def option : Resolver := fun scope t =>
  match t.first? with
  | some inner =>
    if isOneOf t ["Option"] then return (← scope.resolve inner).withRequired false
    else Resolver.unknown t
  | none => Resolver.unknown t

/-- Collections and arrays. -/
def collection : Resolver := fun scope t =>
  match t.first? with
  | some element =>
    if t.isArray || collections.contains t.name then do
      let s ← scope.resolve element
      if s.isAvailable then return .ofElement s else Resolver.unknown t
    else Resolver.unknown t
  | none => Resolver.unknown t

/-- Maps are objects about whose fields nothing is said.  A declared type of the same name goes
before. -/
def map : Resolver := fun scope t =>
  if isOneOf t maps && (scope.index.find? t.name).isNone then return .emptyObject t.text
  else Resolver.unknown t

/-- Pointers and cells. -/
def wrapper : Resolver := fun scope t =>
  match t.first? with
  | some inner => if isOneOf t wrappers then scope.resolve inner else Resolver.unknown t
  | none => Resolver.unknown t

/-- The resolvers of this module, in the order in which they are asked. -/
def resolvers : List Resolver := [primitive, text, option, collection, map, wrapper]

end Standard
end RouteBook
