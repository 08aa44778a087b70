import LatexTable.Session
/-!
A table document: one table as texts, merges and styles, next to its columns, dialect and options.
-/
namespace LatexTable

/-- A region by its first cell and its spans; a span of zero is read as one. -/
structure MergeSpec where
  row : Nat
  col : Nat
  rows : Nat := 1
  cols : Nat := 1
  deriving DecidableEq, Repr

/-- The rectangle of the region, whose end has to be an index. -/
def MergeSpec.range (m : MergeSpec) : TableResult CellRange :=
  let endRow := m.row + max m.rows 1
  let endCol := m.col + max m.cols 1
  if maxIndex < endRow || maxIndex < endCol then
    .error (.invalidDocument (.mergeTooLarge m.row m.col m.rows m.cols))
  else .ok (.ofCorners m.row m.col (endRow - 1) (endCol - 1))

/-- The style of one visible cell. -/
structure StyleSpec where
  row : Nat
  col : Nat
  style : CellStyle
  deriving DecidableEq, Repr

structure TableDocument where
  dialect : Dialect := .modern
  rows : List (List String) := []
  options : TableOptions := {}
  columns : List ColumnSpec := []
  merges : List MergeSpec := []
  styles : List StyleSpec := []
  deriving DecidableEq, Repr

namespace TableDocument

/-- The snapshot of a session. -/
def ofSession (s : Session) : TableDocument where
  dialect := s.dialect
  rows := s.grid.rowList.map (List.map Cell.text)
  options := s.options
  columns := s.columns
  merges := s.grid.regions.map fun r => ⟨r.minRow, r.minCol, r.rowCount, r.colCount⟩
  styles :=
    s.grid.places.filterMap fun (row, col) =>
      let c := s.grid.cellAt row col
      if c.hidden || c.style.isUnset then none else some ⟨row, col, c.style⟩

/-- The table is as wide as its longest row or its list of columns, and not empty. -/
def width (d : TableDocument) : Nat := max (max (Grid.widest d.rows) d.columns.length) 1

def height (d : TableDocument) : Nat := max d.rows.length 1

/-- Merges one region more, which shares no cell with the earlier ones. -/
def addMerge (merged : List CellRange × Grid) (m : MergeSpec) :
    TableResult (List CellRange × Grid) := do
  let r ← m.range
  match merged.1.find? (·.intersects r) with
  | some other =>
    .error (.invalidDocument (.mergeOverlap m.row m.col other.minRow other.minCol))
  | none =>
    let grid ← merged.2.merge r
    return (merged.1 ++ [r], grid)

/-- Sets the style of one cell, which has to be visible. -/
def addStyle (g : Grid) (s : StyleSpec) : TableResult Grid := do
  let (grid, applied) ← g.setStyle s.row s.col s.style
  if applied then return grid
  else .error (.invalidDocument (.coveredStyle s.row s.col))

/-- The session that a document describes. -/
def toSession (d : TableDocument) : TableResult Session := do
  let texts := Grid.ofTextsIn d.height d.width d.rows
  let (_, merged) ← d.merges.foldlM addMerge ([], texts)
  let grid ← d.styles.foldlM addStyle merged
  let columns := d.columns ++ List.replicate (d.width - d.columns.length) .default
  let session ← Session.ofParts grid columns
  return { session with dialect := d.dialect, options := d.options }

end TableDocument
end LatexTable
