import LatexTable.Grid.Range
/-! The selection: where a drag began, where it is now, and whether it still goes on. -/
namespace LatexTable

structure Selection where
  startRow : Nat := 0
  startCol : Nat := 0
  endRow : Nat := 0
  endCol : Nat := 0
  selecting : Bool := false
  deriving DecidableEq, Repr

namespace Selection

def begin (_ : Selection) (row col : Nat) : Selection := ⟨row, col, row, col, true⟩

/-- Moves the free corner, while a drag goes on. -/
def extend (s : Selection) (row col : Nat) : Selection :=
  if s.selecting then { s with endRow := row, endCol := col } else s

def finish (s : Selection) : Selection := { s with selecting := false }

def all (rows cols : Nat) : Selection := ⟨0, 0, rows - 1, cols - 1, false⟩

/-- Pulls both corners back into a grid of the given size. -/
def clamp (s : Selection) (rows cols : Nat) : Selection :=
  { s with
    startRow := min s.startRow (rows - 1), startCol := min s.startCol (cols - 1)
    endRow := min s.endRow (rows - 1), endCol := min s.endCol (cols - 1) }

def range (s : Selection) : CellRange := .ofCorners s.startRow s.startCol s.endRow s.endCol

/-- The focused cell: where the drag began. -/
def focus (s : Selection) : Nat × Nat := (s.startRow, s.startCol)

end Selection
end LatexTable
