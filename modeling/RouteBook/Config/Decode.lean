import RouteBook.Config.Basic
import RouteBook.Json.Basic
/-! # Reading configurations

A configuration is read from a value of some data format.  What the values of a format stand for
is given by a `Decoder`; which keys there are and what belongs to them is the same for all
formats.
-/
namespace RouteBook

/-- What the values of a data format stand for. -/
structure Decoder (ν : Type) where
  text? : ν → Option String
  /-- Whether a value stands for an absent one; `none` if it should but does not. -/
  absent? : ν → Option Bool
  bool? : ν → Option Bool
  /-- A number below `2 ^ 64`. -/
  count? : ν → Option Nat
  items? : ν → Option (List ν)
  /-- The members of a record that has the given keys in this order. -/
  members? : List String → ν → Option (List (String × ν))
  format? : ν → Option OutputFormat

namespace Decoder

variable {ν α : Type} (d : Decoder ν)

/-- A value that may be absent. -/
def optional? (decode : ν → Option α) (value : ν) : Option (Option α) := do
  if ← d.absent? value then return none
  return some (← decode value)

/-- A list of values. -/
def list? (decode : ν → Option α) (value : ν) : Option (List α) := do
  (← d.items? value).mapM decode

/-- The value of the member with one of the given keys; twice is too often. -/
def member? (keys : List String) (members : List (String × ν)) : Option (Option ν) :=
  match members.filter fun (key, _) => keys.contains key with
  | [] => some none
  | [(_, value)] => some (some value)
  | _ => none

/-- The member with one of the given keys, read in the given way; or the default. -/
def memberOr (fallback : α) (keys : List String) (decode : ν → Option α)
    (members : List (String × ν)) : Option α := do
  match ← member? keys members with
  | none => return fallback
  | some value => decode value

/-- A module. -/
def module? (value : ν) : Option SourceModule := do
  let members ← d.members? ["dirName", "urlPrefix"] value
  let directory ← d.text? (← (← member? ["dirName"] members))
  let urlPrefix ← memberOr none ["urlPrefix"] (d.optional? d.text?) members
  return ⟨directory, urlPrefix⟩

/-- The keys of a configuration. -/
def configKeys : List String :=
  ["id", "name", "description", "version", "framework", "urlPrefix", "onlyPatterns",
    "excludePatterns", "onlyPatternsFile", "excludePatternsFile", "buildPath", "formats",
    "modules", "maxDepth", "mergeToOneFile", "mergeFileName"]

/-- A configuration.  Keys without a meaning are passed over. -/
def config? (value : ν) : Option Config := do
  let members ← d.members? configKeys value
  let text (fallback : String) (keys : List String) := memberOr fallback keys d.text? members
  let optText (keys : List String) := memberOr none keys (d.optional? d.text?) members
  let texts (keys : List String) := memberOr [] keys (d.list? d.text?) members
  let base : Config := {}
  return {
    id := ← text base.id ["id"]
    name := ← optText ["name"]
    description := ← optText ["description"]
    version := ← optText ["version"]
    framework := ← optText ["framework"]
    urlPrefix := ← text base.urlPrefix ["urlPrefix"]
    onlyPatterns := ← texts ["onlyPatterns", "urlOnly"]
    excludePatterns := ← texts ["excludePatterns", "urlExclude"]
    onlyPatternsFile := ← optText ["onlyPatternsFile", "urlOnlyYmlPath"]
    excludePatternsFile := ← optText ["excludePatternsFile", "urlExcludeYmlPath"]
    buildPath := ← optText ["buildPath"]
    formats := ← memberOr base.formats ["formats"] (d.list? d.format?) members
    modules := ← memberOr [] ["modules"] (d.list? d.module?) members
    maxDepth := ← memberOr base.maxDepth ["maxDepth"] d.count? members
    mergesDocuments := ← memberOr false ["mergeToOneFile"] d.bool? members
    mergedName := ← optText ["mergeFileName"] }

end Decoder

namespace Json

/-- The format that a value names.  An object with that name as its only key does so as well. -/
def format? : Json → Option OutputFormat
  | .text name => OutputFormat.ofName? name
  | .object [(name, .null)] => OutputFormat.ofName? name
  | _ => none

/-- What JSON values stand for.  An array may stand for a record; its items are the members in
the order of their keys. -/
def decoder : Decoder Json where
  text? := text?
  absent?
    | .null => some true
    | _ => some false
  bool?
    | .bool b => some b
    | _ => none
  count?
    | .number (.int n) => if 0 ≤ n then some n.toNat else none
    | _ => none
  items?
    | .array items => some items
    | _ => none
  members? keys
    | .object members => some members
    | .array items => if items.length ≤ keys.length then some (keys.zip items) else none
    | _ => none
  format? := format?

end Json
end RouteBook
