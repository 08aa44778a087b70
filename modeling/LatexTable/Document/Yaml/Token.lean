/-! The tokens of a YAML text. Where columns of lines make the structure, tokens stand for it. -/
namespace LatexTable.Yaml

inductive ScalarStyle where
  | plain | quoted | block
  deriving DecidableEq, Repr

inductive Token where
  | version (major minor : Nat)
  /-- What the handle of a tag stands for. -/
  | handle (name lead : String)
  | documentStart
  | documentEnd
  /-- The beginning of a list whose entries stand below each other. -/
  | listStart
  /-- The beginning of a record whose fields stand below each other. -/
  | recordStart
  | blockEnd
  /-- The dash before an entry. -/
  | entry
  | openList
  | closeList
  | openRecord
  | closeRecord
  | comma
  /-- The beginning of the name of a field. -/
  | name
  /-- The colon before the value of a field. -/
  | value
  | anchor (name : String)
  /-- A reference to an anchor, with the number of anchors before it. -/
  | reference (name : String) (seen : Nat)
  | tag (handle suffix : String)
  | scalar (style : ScalarStyle) (text : String)
  deriving DecidableEq, Repr

end LatexTable.Yaml
