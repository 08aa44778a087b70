import LatexTable.Text.Letters
/-! The three output grammars. -/
namespace LatexTable
open Text

/-- `modern` describes spans and styles in a table header, `plain` draws lines around a classic
tabular body, `rules` draws typographic rules on it. -/
inductive Dialect where
  | modern | plain | rules
  deriving DecidableEq, Repr

namespace Dialect

def name : Dialect → String
  | .modern => "modern"
  | .plain => "plain"
  | .rules => "rules"

def ofName? (s : String) : Option Dialect :=
  match nameKey s with
  | "modern" | "tabularray" | "tblr" => some .modern
  | "plain" | "tabular" => some .plain
  | "rules" | "booktabs" => some .rules
  | _ => none

/-- Tells the user that a text names no dialect. -/
def unknownMessage (s : String) : String := "unknown dialect '" ++ s ++ "'"

end Dialect
end LatexTable
