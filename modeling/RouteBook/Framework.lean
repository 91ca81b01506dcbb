import RouteBook.Text.Pieces
/-! # Source frameworks -/
namespace RouteBook

/-- The frameworks whose sources are understood. -/
inductive Framework where
  | spring
  deriving DecidableEq, Repr, Inhabited

namespace Framework

/-- The name in configurations. -/
def name : Framework → String
  | .spring => "spring"

/-- All names, in lower case. -/
def names : Framework → List String
  | .spring => ["spring", "springmvc"]

def all : List Framework := [.spring]

/-- The framework with the given name, in upper or lower case and with or without blanks around
it. -/
def ofName? (name : String) : Option Framework :=
  let word := Text.lowered (Text.trimmed name)
  all.find? fun f => f.names.contains word

end Framework
end RouteBook
