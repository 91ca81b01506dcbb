import RouteBook.Declared.TypeTerm
import RouteBook.Failure
/-! # Warnings

A warning tells that something was left out of the documentation.  What may warn gives its
result as `Logged`: a value together with the warnings that came up on the way to it.
-/
namespace RouteBook

/-- Why an endpoint cannot be documented. -/
inductive EndpointFault where
  | unnamedPathVariable
  | unnamedHeader
  deriving DecidableEq, Repr, Inhabited

def EndpointFault.reason : EndpointFault → String
  | .unnamedPathVariable => "path variable binds a pattern and names no variable"
  | .unnamedHeader => "request header binds a pattern and names no header"

/-- An endpoint that cannot be documented. -/
structure MissingData where
  handler : String
  fault : EndpointFault
  deriving DecidableEq, Repr, Inhabited

def MissingData.message (e : MissingData) : String :=
  "skipping endpoint " ++ e.handler ++ ": " ++ e.fault.reason

/-- Why a source file is passed over. -/
inductive SourceFault where
  | unreadable (fault : FileFault)
  | malformed
  deriving DecidableEq, Repr, Inhabited

/-- The wording of the fault of a given file. -/
def SourceFault.message (path : String) : SourceFault → String
  | .unreadable fault => "Failed to read file: " ++ path ++ ": " ++ fault.message
  | .malformed => "Failed to parse Rust syntax in file: " ++ path

/-- How deep types may be nested before the description stops. -/
def maxNesting : Nat := 16

inductive Warning where
  | nestedTooDeep (type : TypeTerm)
  | unresolvedField (type : TypeTerm) (record field : String)
  | unresolvedHeader (type : TypeTerm) (key handler : String)
  | unresolvedParam (type : TypeTerm) (param : Option String) (handler : String)
  | unnamedParam (type : TypeTerm) (handler : String)
  | unresolvedBody (type : TypeTerm) (handler : String)
  | skippedEndpoint (e : MissingData) (controller : String)
  | skippedFile (path : String) (fault : SourceFault)
  | unparsedFiles (count : Nat)
  | missingModule (name : String) (depth : Nat)
  | skippedModule (dir : String) (failure : Failure)
  | nothingToDocument
  deriving Repr, Inhabited

def Warning.message : Warning → String
  | .nestedTooDeep type =>
    "Type nesting deeper than " ++ toString maxNesting ++ " at " ++ type.text ++ ", truncating"
  | .unresolvedField type record field =>
    "Cannot resolve type " ++ type.text ++ " of field " ++ record ++ "." ++ field ++
      ", omitting it"
  | .unresolvedHeader type key handler =>
    "Cannot resolve type " ++ type.text ++ " of header " ++ key ++ " in " ++ handler ++
      ", omitting it"
  | .unresolvedParam type param handler =>
    "Cannot resolve type " ++ type.text ++ " of parameter " ++ param.getD "_" ++ " in " ++
      handler ++ ", omitting it"
  | .unnamedParam type handler =>
    "Parameter of type " ++ type.text ++ " in " ++ handler ++ " has no name, omitting it"
  | .unresolvedBody type handler =>
    "Cannot resolve request body type " ++ type.text ++ " of " ++ handler ++
      ", omitting the body"
  | .skippedEndpoint e controller => e.message ++ " (" ++ controller ++ ")"
  | .skippedFile path fault => "Skipping " ++ path ++ ": " ++ fault.message path
  | .unparsedFiles count => toString count ++ " files could not be parsed"
  | .missingModule name depth =>
    "Module directory " ++ name ++ " not found within depth " ++ toString depth
  | .skippedModule dir failure => "Skipping module " ++ dir ++ ": " ++ failure.message
  | .nothingToDocument => "No endpoints left to document"

/-- A value and the warnings on the way to it, the first one first. -/
structure Logged (α : Type) where
  value : α
  warnings : List Warning
  deriving Repr, Inhabited

namespace Logged

variable {α β : Type}

instance : Monad Logged where
  pure a := ⟨a, []⟩
  bind x f :=
    let y := f x.value
    ⟨y.value, x.warnings ++ y.warnings⟩

@[simp] theorem value_pure (a : α) : (pure a : Logged α).value = a := rfl

@[simp] theorem warnings_pure (a : α) : (pure a : Logged α).warnings = [] := rfl

@[simp] theorem value_bind (x : Logged α) (f : α → Logged β) :
    (x >>= f).value = (f x.value).value := rfl

@[simp] theorem warnings_bind (x : Logged α) (f : α → Logged β) :
    (x >>= f).warnings = x.warnings ++ (f x.value).warnings := rfl

/-- Only the value at hand counts for what follows. -/
theorem bind_congr_value (x : Logged α) {f g : α → Logged β} (h : f x.value = g x.value) :
    x >>= f = x >>= g := by
  show (⟨(f x.value).value, x.warnings ++ (f x.value).warnings⟩ : Logged β) = _
  rw [h]
  rfl

/-- What follows without a warning adds none. -/
theorem bind_of_silent (x : Logged α) {f : α → Logged β} (h : (f x.value).warnings = []) :
    x >>= f = ⟨(f x.value).value, x.warnings⟩ := by
  show (⟨(f x.value).value, x.warnings ++ (f x.value).warnings⟩ : Logged β) = _
  rw [h, List.append_nil]

/-- The value of a fold is the fold of the values. -/
@[simp] theorem value_foldlM (f : β → α → Logged β) (b : β) (as : List α) :
    (as.foldlM f b).value = as.foldl (fun b a => (f b a).value) b := by
  induction as generalizing b with
  | nil => rfl
  | cons a as ih => rw [List.foldlM_cons, value_bind, ih, List.foldl_cons]

/-- Warns. -/
def warn (w : Warning) : Logged Unit := ⟨(), [w]⟩

end Logged
end RouteBook
