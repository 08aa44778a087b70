import LatexTable.Grid.Basic
import LatexTable.InPlace
/-! Merging a rectangle of cells into one region, and splitting regions again. -/
namespace LatexTable.Grid

/-- A cell after the given regions are gone: their first cells stand alone, their shadows become
empty cells. -/
def dissolvedAt (g : Grid) (gone : List CellRange) (row col : Nat) : Cell :=
  if gone.any (·.startsAt row col) then (g.cellAt row col).alone
  else if gone.any (·.contains row col) then .empty
  else g.cellAt row col

def dissolve (g : Grid) (gone : List CellRange) : Grid :=
  tabulate g.rows g.cols (g.dissolvedAt gone)

/-- One region over a rectangle, whatever stood there. Its first cell keeps text and style. -/
def cover (g : Grid) (r : CellRange) : Grid :=
  tabulate g.rows g.cols fun row col =>
    if r.startsAt row col then
      { g.cellAt row col with rowSpan := r.rowCount, colSpan := r.colCount, hidden := false }
    else if r.contains row col then .shadow
    else g.cellAt row col

/-- Merges a rectangle. Regions that it meets are dissolved first; a single cell stays as it is. -/
def mergeInPlace (g : Grid) (r : CellRange) : TableResult Unit × Grid := InPlace.perform g do
  InPlace.ask (·.checkRange r)
  if r.isSingle then return
  else
    modify fun g => g.dissolve (g.regions.filter (·.intersects r))
    modify (·.cover r)

def merge (g : Grid) (r : CellRange) : TableResult Grid := InPlace.changed (g.mergeInPlace r)

/-- Dissolves the regions whose first cell lies in the rectangle, and counts them. -/
def splitInPlace (g : Grid) (r : CellRange) : TableResult Nat × Grid := InPlace.perform g do
  InPlace.ask (·.checkRange r)
  let targets := (← get).regions.filter fun region => r.contains region.minRow region.minCol
  modify (·.dissolve targets)
  return targets.length

def split (g : Grid) (r : CellRange) : TableResult (Grid × Nat) :=
  InPlace.answered (g.splitInPlace r)

end LatexTable.Grid
