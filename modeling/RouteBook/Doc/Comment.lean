import RouteBook.Text.Pieces
/-! # Documentation comments

A documentation comment is a description followed by tags.  A line that begins with `@` opens
a tag, and the lines up to the next tag belong to it; the lines before the first tag are the
description.
-/
namespace RouteBook

/-- The two name spaces of tags: `@param x …` is filed under `x`, and any other tag under its
own name. -/
inductive TagKind where
  | param
  | named
  deriving DecidableEq, Repr, Inhabited

structure Tag where
  kind : TagKind
  name : String
  content : String
  deriving DecidableEq, Repr, Inhabited

/-- What a documentation comment says. -/
structure DocComment where
  description : Option String
  tags : List Tag
  deriving DecidableEq, Repr, Inhabited

namespace Tag

/-- The first word of a text, and the trimmed rest. -/
def splitWord (cs : List Char) : List Char × List Char :=
  let cs := Text.trim cs
  (cs.takeWhile (!Text.isBlank ·), Text.trim (cs.dropWhile (!Text.isBlank ·)))

/-- Reads what follows the `@` of a tag line. -/
def parse (line : List Char) : Tag :=
  let (name, content) := splitWord line
  if name = ['p', 'a', 'r', 'a', 'm'] then
    let (param, content) := splitWord content
    ⟨.param, String.ofList param, String.ofList content⟩
  else ⟨.named, String.ofList name, String.ofList content⟩

/-- The tag with a further line of content, a blank apart from what it holds. -/
def addLine (tag : Tag) (line : List Char) : Tag :=
  if line = [] then tag
  else if tag.content = "" then { tag with content := String.ofList line }
  else { tag with content := tag.content ++ " " ++ String.ofList line }

/-- The first tag of a kind with the given name. -/
def find? (tags : List Tag) (kind : TagKind) (name : String) : Option Tag :=
  tags.find? fun tag => tag.kind = kind ∧ tag.name = name

end Tag

namespace DocComment

/-- The comment that says nothing. -/
def none : DocComment := ⟨Option.none, []⟩

/-- The text of a tag line behind its `@`. -/
def tagLine? : List Char → Option (List Char)
  | '@' :: rest => some rest
  | _ => Option.none

/-- The tags opened by a list of trimmed lines.  Lines before the first tag are passed over. -/
def tagsOf : List (List Char) → List Tag
  | [] => []
  | line :: lines =>
    match tagLine? line with
    | some rest =>
      let continued := lines.takeWhile fun l => (tagLine? l).isNone
      continued.foldl Tag.addLine (Tag.parse rest) :: tagsOf lines
    | Option.none => tagsOf lines

/-- Reads the text of a comment. -/
def parse (text : List Char) : DocComment :=
  let lines := (Text.lines text).map Text.trim
  let free := lines.takeWhile fun l => (tagLine? l).isNone
  let description := Text.trim (Text.joinWith ['\n'] free)
  { description := if description = [] then Option.none else some (String.ofList description)
    tags := tagsOf lines }

/-- Reads the comment that is spread over several attributes, one text for each. -/
def ofChunks (chunks : List String) : DocComment :=
  parse (Text.joinWith ['\n'] (chunks.flatMap fun chunk => Text.lines chunk.toList))

/-- The tag that documents a parameter. -/
def param? (doc : DocComment) (name : String) : Option Tag := Tag.find? doc.tags .param name

/-- The first tag with the given name. -/
def named? (doc : DocComment) (name : String) : Option Tag := Tag.find? doc.tags .named name

def hasTag (doc : DocComment) (name : String) : Bool := (doc.named? name).isSome

/-- The first line of the description. -/
def summary? (doc : DocComment) : Option String := do
  let description ← doc.description
  let line ← (Text.lines description.toList).head?
  Text.nonBlank? (String.ofList line)

def isEmpty (doc : DocComment) : Bool := doc.description.isNone && doc.tags.isEmpty

end DocComment
end RouteBook
