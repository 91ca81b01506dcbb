import RouteBook.Decimal.Binary64
import RouteBook.Source.Identifier
/-! # Token trees of Rust source

Source text is read as a list of token trees: identifiers, single punctuation characters,
literals, and groups of trees between matching brackets.  A punctuation character remembers
whether another one follows it at once, because an operator such as `->` is only recognised
when nothing stands between its characters.
-/
namespace RouteBook
namespace Source

/-! ### Words -/

/-- A character that may start an identifier, and others that may continue it. -/
structure PlainWord where
  first : Char
  others : List Char
  starts : isIdentStart first = true
  continues : others.all isIdentContinue = true
  deriving Repr

def PlainWord.text (w : PlainWord) : String := String.ofList (w.first :: w.others)

/-- The words that cannot be written raw. -/
def neverRaw : List String := ["_", "super", "self", "Self", "crate"]

/-- An identifier or a keyword. -/
inductive Word where
  | plain (w : PlainWord)
  /-- An identifier behind `r#`. -/
  | raw (w : PlainWord) (free : w.text ∉ neverRaw)
  deriving Repr

/-- The text of a word; a raw identifier keeps its `r#`. -/
def Word.text : Word → String
  | plain w => w.text
  | raw w _ => "r#" ++ w.text

instance : Inhabited Word := ⟨.plain ⟨'_', [], rfl, rfl⟩⟩

/-- The words that are never identifiers unless they are written raw. -/
def keywords : List String :=
  ["_", "abstract", "as", "async", "await", "become", "box", "break", "const", "continue",
    "crate", "do", "dyn", "else", "enum", "extern", "false", "final", "fn", "for", "if",
    "impl", "in", "let", "loop", "macro", "match", "mod", "move", "mut", "override", "priv",
    "pub", "ref", "return", "Self", "self", "static", "struct", "super", "trait", "true",
    "try", "type", "typeof", "unsafe", "unsized", "use", "virtual", "where", "while", "yield"]

def isKeyword (word : String) : Bool := keywords.contains word

/-! ### Trees -/

/-- The three kinds of brackets. -/
inductive Delimiter where
  | paren
  | bracket
  | brace
  deriving DecidableEq, Repr, Inhabited

/-- A literal with its value. -/
inductive Literal where
  | text (value : String)
  | char (value : Char)
  | bool (value : Bool)
  /-- An integer: its sign, its magnitude, its suffix, and how it is written. -/
  | int (negative : Bool) (magnitude : Nat) (suffix : String) (written : String)
  /-- `digits * 10 ^ exponent` with a sign, and how it is written. -/
  | float (negative : Bool) (digits : Nat) (exponent : Int) (written : String)
  /-- A byte, a byte string or a C string. -/
  | bytes
  deriving DecidableEq, Repr, Inhabited

inductive Token where
  | ident (word : Word)
  | punct (c : Char) (joint : Bool)
  | literal (value : Literal)
  | group (delimiter : Delimiter) (content : List Token)
  deriving Repr, Inhabited

mutual
/-- The number of tokens in a tree, brackets included. -/
def Token.size : Token → Nat
  | .ident _ => 1
  | .punct _ _ => 1
  | .literal _ => 1
  | .group _ content => Token.sizes content + 2

/-- The number of tokens in several trees. -/
def Token.sizes : List Token → Nat
  | [] => 0
  | token :: tokens => token.size + Token.sizes tokens
end

end Source
end RouteBook
