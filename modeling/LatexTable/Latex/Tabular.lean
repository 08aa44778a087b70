import LatexTable.Latex.Boundary
import LatexTable.Latex.Frame
import LatexTable.Latex.RowUnit
/-! Tables in the tabular grammar: with plain lines, or with typographic rules. -/
namespace LatexTable.Latex

def tabularEnvironment (o : TableOptions) : String :=
  if o.longTable then "longtable" else "tabular"

/-- Caption and label at the head of a table that runs over pages. -/
def longCaption (o : TableOptions) : List String :=
  match o.longTable, o.captionText? with
  | true, some caption =>
    let label := (o.labelText?.map fun label => "\\label" ++ braced label).getD ""
    ["\\caption" ++ braced caption ++ label ++ " \\\\"]
  | _, _ => []

def rowLine (t : TabularColumns) (g : Grid) (row : Nat) : String :=
  "  " ++ t.rowText g row ++ " \\\\"

/-- The table around its body lines. -/
def tabular (o : TableOptions) (t : TabularColumns) (body : List String) : String :=
  let environment := tabularEnvironment o
  Text.trimEnd <| unlines <|
    o.openingLines ++ [beginning environment ++ braced t.spec] ++ longCaption o ++ body ++
      [ending environment] ++ o.closingLines

/-- Lines above and below every row, and between the columns. -/
def plainTable (g : Grid) (columns : ColumnSpecs) (o : TableOptions) : String :=
  let t : TabularColumns := ⟨columns.resolve .plain g.cols, o.verticalRules⟩
  let below (row : Nat) : List String :=
    if o.horizontalRules then (g.boundaryText? row .normal).toList else []
  tabular o t <|
    (if o.horizontalRules then ["\\hline"] else []) ++
      (List.range g.rows).flatMap fun row => rowLine t g row :: below row

/-- A rule above, below the first row and at the end; between the other rows on request. -/
def rulesTable (g : Grid) (columns : ColumnSpecs) (o : TableOptions) : String :=
  let t : TabularColumns := ⟨columns.resolve .rules g.cols, false⟩
  let below (row : Nat) : List String :=
    if row + 1 < g.rows && (row = 0 || o.horizontalRules) then (g.boundaryText? row .mid).toList
    else []
  tabular o t <|
    ["\\toprule"] ++
      ((List.range g.rows).flatMap fun row => rowLine t g row :: below row) ++ ["\\bottomrule"]

end LatexTable.Latex
