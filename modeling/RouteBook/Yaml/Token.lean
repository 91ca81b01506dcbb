import RouteBook.Yaml.Glyph
/-! # The tokens of YAML -/
namespace RouteBook
namespace Yaml

/-- How a scalar is written. -/
inductive ScalarStyle where
  | plain
  | quoted
  | literal
  | folded
  deriving DecidableEq, Repr, Inhabited

inductive Token where
  /-- The version of the format that a text claims to be written in. -/
  | version (major minor : Nat)
  /-- A short name for the front part of tags. -/
  | handle (name lead : String)
  | documentStart
  | documentEnd
  /-- The start of a block sequence or map: its first line is deeper than the lines before. -/
  | sequenceStart
  | mapStart
  /-- The end of the innermost block sequence or map. -/
  | blockEnd
  | flowSequenceStart
  | flowSequenceEnd
  | flowMapStart
  | flowMapEnd
  /-- A dash before an item. -/
  | item
  | comma
  /-- The start of a key, whether a mark stands there or not. -/
  | key
  | value
  /-- The use of a named node. -/
  | reference (name : String)
  /-- The name of the node that follows. -/
  | anchor (name : String)
  /-- The tag of the node that follows; without a handle it is complete. -/
  | tag (handle suffix : String)
  | scalar (style : ScalarStyle) (text : String)
  deriving DecidableEq, Repr, Inhabited

end Yaml
end RouteBook
