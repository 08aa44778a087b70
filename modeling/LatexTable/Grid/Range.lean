import LatexTable.Error
/-! Rectangles of cells, both corners included. -/
namespace LatexTable

structure CellRange where
  minRow : Nat
  minCol : Nat
  maxRow : Nat
  maxCol : Nat
  deriving DecidableEq, Repr

namespace CellRange

/-- The smallest rectangle that holds two cells. -/
def ofCorners (rowA colA rowB colB : Nat) : CellRange :=
  ⟨min rowA rowB, min colA colB, max rowA rowB, max colA colB⟩

def single (row col : Nat) : CellRange := ⟨row, col, row, col⟩

/-- The rectangle of a cell that spans rows and columns; a span of zero is read as one, and the
rectangle ends at the largest index. -/
def ofSpan (row col rowSpan colSpan : Nat) : CellRange :=
  ⟨row, col, min (row + (max rowSpan 1 - 1)) maxIndex, min (col + (max colSpan 1 - 1)) maxIndex⟩

def isSingle (r : CellRange) : Bool := r.minRow = r.maxRow && r.minCol = r.maxCol

def rowCount (r : CellRange) : Nat := r.maxRow - r.minRow + 1

def colCount (r : CellRange) : Nat := r.maxCol - r.minCol + 1

def contains (r : CellRange) (row col : Nat) : Bool :=
  r.minRow ≤ row && row ≤ r.maxRow && r.minCol ≤ col && col ≤ r.maxCol

def intersects (r s : CellRange) : Bool :=
  r.minRow ≤ s.maxRow && s.minRow ≤ r.maxRow && r.minCol ≤ s.maxCol && s.minCol ≤ r.maxCol

/-- Whether the cell is the top left corner. -/
def startsAt (r : CellRange) (row col : Nat) : Bool := r.minRow = row && r.minCol = col

/-- All cells, row by row. -/
def cells (r : CellRange) : List (Nat × Nat) :=
  (List.range' r.minRow r.rowCount).flatMap fun row =>
    (List.range' r.minCol r.colCount).map fun col => (row, col)

/-- The first and the last line along an axis: of the rows, or of the columns. -/
def first (r : CellRange) : Axis → Nat
  | .row => r.minRow
  | .column => r.minCol

def last (r : CellRange) : Axis → Nat
  | .row => r.maxRow
  | .column => r.maxCol

end CellRange
end LatexTable
