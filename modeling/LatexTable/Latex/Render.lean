import LatexTable.Latex.Tabular
import LatexTable.Latex.Tblr
/-! A table as LaTeX source in a dialect. -/
namespace LatexTable

def Grid.latex (g : Grid) (dialect : Dialect) (columns : ColumnSpecs) (o : TableOptions) : String :=
  match dialect with
  | .modern => Latex.tblrTable g columns o
  | .plain => Latex.plainTable g columns o
  | .rules => Latex.rulesTable g columns o

/-- The table of the given texts with centred columns. -/
def latexOfTexts (texts : List (List String)) (dialect : Dialect) (o : TableOptions) : String :=
  let g := Grid.ofTexts texts
  g.latex dialect (.blank g.cols) o

end LatexTable
