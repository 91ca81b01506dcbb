import RouteBook.Yaml.Lexer
import RouteBook.Yaml.Node
import RouteBook.Json.Basic
/-! # From tokens to a document

`Document.parse?` reads a text that holds a single document.
-/
namespace RouteBook
namespace Yaml

/-- What is left to read, and what has been named. -/
structure Builder where
  tokens : List Token
  /-- The front parts of tags by their handles. -/
  handles : List (String × String)
  /-- The numbers of the names in use. -/
  numbers : List (String × Nat)
  /-- How many nodes have been begun. -/
  begun : Nat
  /-- For a number, which of the nodes it stands for; later entries come first. -/
  ranks : List (Nat × Nat)
  /-- The named nodes, by how many nodes have been begun before them. -/
  nodes : List (Nat × Node)
  deriving Inhabited

/-- Building consumes tokens, or fails. -/
abbrev Build := StateT Builder Option

namespace Build

/-- The next token. -/
def peek? : Build (Option Token) := return (← get).tokens.head?

/-- Whether one of the given tokens is next. -/
def isNext (tokens : List Token) : Build Bool := return (← peek?).any tokens.contains

def skip : Build Unit := modify fun s => { s with tokens := s.tokens.drop 1 }

/-- Takes the given token if it is next. -/
def accept (token : Token) : Build Bool := do
  if ← isNext [token] then
    skip
    return true
  return false

/-- Takes the given token, which has to be next. -/
def demand (token : Token) : Build Unit := do
  unless ← accept token do failure

/-- The tag that a handle and a suffix make up. -/
def tagOf (handle suffix : String) : Build String := do
  if handle.isEmpty then return suffix
  match (← get).handles.lookup handle with
  | some lead => return lead ++ suffix
  | none => failure

/-- The name and the tag before a node, in any order. -/
def properties : Build (Option String × Option String) := do
  let anchor : Build (Option String) := do
    match ← peek? with
    | some (.anchor name) =>
      skip
      return some name
    | _ => return none
  let tag : Build (Option (String × String)) := do
    match ← peek? with
    | some (.tag handle suffix) =>
      skip
      return some (handle, suffix)
    | _ => return none
  let name ← anchor
  let tag ← tag
  let name ← if name.isSome then pure name else anchor
  match tag with
  | none => return (name, none)
  | some (handle, suffix) => return (name, some (← tagOf handle suffix))

/-- Begins a node, which may have a name.  A name gets the count of names in use as its number,
under which the node that was begun last is found. -/
def begin (name : Option String) : Build Nat := do
  let s ← get
  let rank := s.begun
  match name with
  | none => set { s with begun := rank + 1 }
  | some name =>
    let number := s.numbers.length
    set { s with
      begun := rank + 1
      numbers := insertPair name number s.numbers
      ranks := (number, rank) :: s.ranks }
  return rank

/-- Keeps a node if it has a name. -/
def keep (name : Option String) (rank : Nat) (node : Node) : Build Node := do
  if name.isSome then modify fun s => { s with nodes := (rank, node) :: s.nodes }
  return node

/-- A scalar, for which an exclamation mark alone counts as no tag. -/
def scalarOf (tag : Option String) (style : ScalarStyle) (text : String) : Node :=
  .scalar (tag.filter (· ≠ "!")) style text

/-- Tokens that cannot begin a value or a key in a block. -/
def blockStops : List Token := [.key, .value, .blockEnd]

mutual
/-- A node.  Only some places allow blocks, and only some of these a sequence whose dashes are
no deeper than the key before it. -/
def node (fuel : Nat) (allowsBlock allowsFlat : Bool) : Build Node :=
  match fuel with
  | 0 => failure
  | fuel + 1 => do
    if let some (.reference name) ← peek? then
      skip
      match (← get).numbers.lookup name with
      | some number => return .reference number
      | none => failure
    let (name, tag) ← properties
    let rank ← begin name
    let collection (start : Token) (content : Build Node) : Build Node := do
      demand start
      keep name rank (← content)
    match ← peek? with
    | some (.scalar style text) =>
      skip
      keep name rank (scalarOf tag style text)
    | some .flowSequenceStart =>
      collection .flowSequenceStart (return .sequence (← flowItems fuel true))
    | some .flowMapStart => collection .flowMapStart (return .map (← flowMembers fuel true))
    | next =>
      if allowsFlat && next == some .item then
        keep name rank (.sequence (← flatItems fuel))
      else if allowsBlock && next == some .sequenceStart then
        collection .sequenceStart (return .sequence (← blockItems fuel))
      else if allowsBlock && next == some .mapStart then
        collection .mapStart (return .map (← blockMembers fuel))
      else if name.isSome || tag.isSome then keep name rank (.scalar tag .plain "")
      else failure

/-- A node, or an empty one if one of the given tokens is next. -/
def nodeUnless (fuel : Nat) (stops : List Token) (allowsBlock allowsFlat : Bool) : Build Node :=
  match fuel with
  | 0 => failure
  | fuel + 1 => do
    if ← isNext stops then return Node.empty
    node fuel allowsBlock allowsFlat

/-- The items of a block sequence up to its end. -/
def blockItems (fuel : Nat) : Build (List Node) :=
  match fuel with
  | 0 => failure
  | fuel + 1 => do
    if ← accept .item then
      let item ← nodeUnless fuel [.item, .blockEnd] true false
      return item :: (← blockItems fuel)
    demand .blockEnd
    return []

/-- The items of a sequence that is no deeper than the key before it. -/
def flatItems (fuel : Nat) : Build (List Node) :=
  match fuel with
  | 0 => failure
  | fuel + 1 => do
    if ← accept .item then
      let item ← nodeUnless fuel (.item :: blockStops) true false
      return item :: (← flatItems fuel)
    return []

/-- The members of a block map up to its end. -/
def blockMembers (fuel : Nat) : Build (List (Node × Node)) :=
  match fuel with
  | 0 => failure
  | fuel + 1 => do
    if ← accept .key then
      let key ← nodeUnless fuel blockStops true true
      let value ← if ← accept .value then nodeUnless fuel blockStops true true
        else pure Node.empty
      return (key, value) :: (← blockMembers fuel)
    demand .blockEnd
    return []

/-- The items of a sequence in brackets; before all but the first one there is a comma.  A key
with its value may stand there without braces. -/
def flowItems (fuel : Nat) (isFirst : Bool) : Build (List Node) :=
  match fuel with
  | 0 => failure
  | fuel + 1 => do
    if ← accept .flowSequenceEnd then return []
    unless isFirst do demand .comma
    if ← accept .key then
      let pair ← flowPair fuel
      return pair :: (← flowItems fuel false)
    if ← accept .flowSequenceEnd then return []
    let item ← node fuel false false
    return item :: (← flowItems fuel false)

/-- A map of a single member without braces, behind the start of its key.  What follows a
missing key is lost. -/
def flowPair (fuel : Nat) : Build Node :=
  match fuel with
  | 0 => failure
  | fuel + 1 => do
    let _ ← begin none
    let key ← if ← isNext [.value, .comma, .flowSequenceEnd] then
        skip
        pure Node.empty
      else node fuel false false
    let value ← if ← accept .value then
        nodeUnless fuel [.comma, .flowSequenceEnd] false false
      else pure Node.empty
    return .map [(key, value)]

/-- The members of a map in braces; before all but the first one there is a comma. -/
def flowMembers (fuel : Nat) (isFirst : Bool) : Build (List (Node × Node)) :=
  match fuel with
  | 0 => failure
  | fuel + 1 => do
    if ← accept .flowMapEnd then return []
    unless isFirst do demand .comma
    if ← accept .key then
      let key ← nodeUnless fuel [.value, .comma, .flowMapEnd] false false
      let value ← if ← accept .value then nodeUnless fuel [.comma, .flowMapEnd] false false
        else pure Node.empty
      return (key, value) :: (← flowMembers fuel false)
    if ← accept .flowMapEnd then return []
    let key ← node fuel false false
    return (key, Node.empty) :: (← flowMembers fuel false)
end

/-- The directives before a document: at most one version, which has to be known, and for every
handle at most one front part. -/
def directives : (versioned : Bool) → (seen : List String) → List Token → Build Unit
  | versioned, seen, .version major minor :: tokens => do
    if versioned || major ≠ 1 || !(minor = 1 || minor = 2) then failure
    skip
    directives true seen tokens
  | versioned, seen, .handle name lead :: tokens => do
    if seen.contains name then failure
    skip
    modify fun s => { s with handles := (name, lead) :: s.handles }
    directives versioned (name :: seen) tokens
  | _, _, _ => return

/-- Tokens with which a document begins that has a mark of its own. -/
def opensDocument : Token → Bool
  | .version _ _ | .handle _ _ | .documentStart => true
  | _ => false

/-- The root of the first document. -/
def root? : Build (Option Node) := do
  let fuel := 4 * (← get).tokens.length + 4
  match ← peek? with
  | none => return none
  | some first =>
    if !opensDocument first then return some (← node fuel true false)
    directives false [] (← get).tokens
    demand .documentStart
    match ← peek? with
    | none => return some Node.empty
    | some next =>
      if opensDocument next || next == .documentEnd then return some Node.empty
      return some (← node fuel true false)

/-- A single document and nothing behind it. -/
def document : Build Document := do
  let root ← root?
  let s ← get
  unless s.tokens.all (· == .documentEnd) do failure
  let named := s.ranks.filterMap fun (number, rank) =>
    (s.nodes.lookup rank).map fun node => (number, node)
  return ⟨root, named⟩

end Build

/-- The handles that need no directive. -/
def commonHandles : List (String × String) := [("!", "!"), ("!!", "tag:yaml.org,2002:")]

/-- Reads a text that holds a single document. -/
def Document.parse? (text : String) : Option Document := do
  let tokens ← tokens? text
  let (document, _) ← Build.document.run ⟨tokens, commonHandles, [], 0, [], []⟩
  return document

end Yaml
end RouteBook
