import LatexTable.Grid.Basic
/-! Whether the stored cells encode a grid with disjoint regions inside it. -/
namespace LatexTable.Grid

/-- How many of the regions cover a place without starting there. -/
def coverCount (regions : List CellRange) (row col : Nat) : Nat :=
  regions.countP fun r => r.contains row col && !r.startsAt row col

/-- The first fault of a cell at its place among the regions, if there is one. -/
def cellFault? (regions : List CellRange) (c : Cell) (row col : Nat) : Option DocumentFault :=
  let covers := coverCount regions row col
  if covers ≠ (if c.hidden then 1 else 0) then some (.coveredBy row col covers)
  else if c.hidden && c ≠ .shadow then some (.shadowCarriesData row col)
  else none

def fault? (g : Grid) : Option DocumentFault :=
  if g.cells.size ≠ g.rows * g.cols then some (.cellCount g.cells.size g.rows g.cols)
  else
    let regions := g.regions
    match regions.find? fun r => g.rows ≤ r.maxRow || g.cols ≤ r.maxCol with
    | some r => some (.spansOutside r.minRow r.minCol)
    | none => g.places.findSome? fun (row, col) => cellFault? regions (g.cellAt row col) row col

/-- Accepts the grid, or names its first fault. -/
def validate (g : Grid) : TableResult Unit :=
  match g.fault? with
  | none => .ok ()
  | some fault => .error (.invalidDocument fault)

end LatexTable.Grid
