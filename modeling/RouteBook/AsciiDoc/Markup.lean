import RouteBook.Text.Pieces
/-! # AsciiDoc markup

A document is a list of blocks, written one after another.  Writing a block goes on from the
content so far (`Markup.write`): most blocks put lines behind it, but a paragraph ends by taking the
mark that breaks its last line off the end of all the content.

What a block looks like by itself is its text (`Markup.blockText`).
-/
namespace RouteBook

/-- A block of markup. -/
inductive Markup where
  /-- The title of the document and its attributes. -/
  | header (name : String) (attributes : List (String × String))
  /-- A title; level 1 stands right below the document. -/
  | title (level : Nat) (text : String)
  /-- A paragraph; nothing is written for a blank text. -/
  | paragraph (text : Option String)
  | listing (language : String) (lines : List String)
  /-- A table below its header; nothing is written without rows. -/
  | table (header : List String) (rows : List (List String))
  | line (text : String)
  | blankLine
  deriving DecidableEq, Repr, Inhabited

namespace Markup

/-! ### Lines of blocks -/

def headerLine (name : String) : String := "= " ++ name

/-- The line of a document attribute. -/
def attributeLine (entry : String × String) : String := ":" ++ entry.1 ++ ": " ++ entry.2

def titleLine (level : Nat) (text : String) : String :=
  String.ofList (List.replicate (level + 1) '=') ++ " " ++ text

/-- The lines of a paragraph: those lines of a text that are not blank, without the blanks at their
ends. -/
def paragraphLines (text : List Char) : List String :=
  ((Text.lines text).filter (!Text.isBlankText ·)).map fun line => String.ofList (Text.trimEnd line)

/-- What ends a line of a paragraph that is to stay a line. -/
def hardBreak : String := " +"

def languageLine (language : String) : String := "[source," ++ language ++ "]"

/-- The line above and below a listing. -/
def listingFence : String := "----"

/-- The line above a table of so many columns. -/
def optionsLine (columns : Nat) : String :=
  "[options=\"header\",cols=\"" ++ toString columns ++ "\"]"

/-- The line above and below the rows of a table. -/
def tableFence : String := "|==="

/-- A text in a table cell.  Bars are escaped, and a cell is written on one line. -/
def cellText (cell : String) : String :=
  String.ofList (cell.toList.flatMap fun c =>
    if c = '|' then ['\\', '|'] else if c = '\n' then [' '] else [c])

/-- A row of a table, given the text of its cells. -/
def rowLine (cells : List String) : String := String.join (cells.map ("|" ++ ·))

/-! ### Writing -/

/-- The content with a line behind it. -/
def addLine (content line : String) : String := content ++ line ++ "\n"

def addLines (content : String) (lines : List String) : String := lines.foldl addLine content

/-- The content without the mark that breaks its last line. -/
def trimHardBreak (content : String) : String :=
  match content.toList.reverse with
  | '\n' :: '+' :: ' ' :: front => String.ofList (front.reverse ++ ['\n'])
  | _ => content

/-- The content with a block behind it. -/
def write (content : String) : Markup → String
  | .header name attributes =>
    addLines (addLine content (headerLine name)) (attributes.map attributeLine) ++ "\n"
  | .title level text => addLine content (titleLine level text) ++ "\n"
  | .paragraph text =>
    match (text.map Text.trimmed).filter (· ≠ "") with
    | none => content
    | some text =>
      -- every line is written with a hard break, the last one too
      trimHardBreak (addLines content ((paragraphLines text.toList).map (· ++ hardBreak))) ++ "\n"
  | .listing language lines =>
    let opened := addLine (addLine content (languageLine language)) listingFence
    addLine (addLines opened lines) listingFence ++ "\n"
  | .table names rows =>
    if rows.isEmpty then content
    else
      let opened := addLine (addLine content (optionsLine names.length)) tableFence
      let rowLines := rows.map fun row => rowLine (row.map cellText)
      addLine (addLines (addLine opened (rowLine names)) rowLines) tableFence ++ "\n"
  | .line text => addLine content text
  | .blankLine => content ++ "\n"

/-- The text of a document. -/
def text (blocks : List Markup) : String := blocks.foldl write ""

/-! ### Blocks by themselves -/

/-- Lines, each with its end. -/
def unlines (lines : List String) : String := String.join (lines.map (· ++ "\n"))

/-- The text of a block. -/
def blockText : Markup → String
  | .header name attributes =>
    unlines (headerLine name :: attributes.map attributeLine) ++ "\n"
  | .title level text => titleLine level text ++ "\n\n"
  | .paragraph text =>
    match paragraphLines (Text.trim (text.getD "").toList) with
    | [] => ""
    | lines => Text.joined (hardBreak ++ "\n") lines ++ "\n\n"
  | .listing language lines =>
    unlines (languageLine language :: listingFence :: (lines ++ [listingFence])) ++ "\n"
  | .table names rows =>
    if rows.isEmpty then ""
    else
      unlines (optionsLine names.length :: tableFence :: rowLine names ::
          (rows.map fun row => rowLine (row.map cellText)) ++ [tableFence])
        ++ "\n"
  | .line text => text ++ "\n"
  | .blankLine => "\n"

end Markup
end RouteBook
