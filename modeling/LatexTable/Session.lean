import LatexTable.Grid.Lines
import LatexTable.Grid.Merge
import LatexTable.Grid.Update
import LatexTable.Grid.Validate
import LatexTable.Latex.Render
import LatexTable.Selection
/-!
The editing session of one table: grid, column registry and selection change together, so that the
registry has an entry for every column and the selection stays on the grid.
-/
namespace LatexTable

structure Session where
  grid : Grid
  columns : ColumnSpecs
  selection : Selection := {}
  dialect : Dialect := .modern
  options : TableOptions := {}
  deriving DecidableEq, Repr

namespace Session

def blank (rows cols : Nat) : Session :=
  let grid := Grid.blank rows cols
  { grid, columns := .blank grid.cols }

/-- A session on a grid and a registry that fit each other. -/
def ofParts (grid : Grid) (columns : ColumnSpecs) : TableResult Session := do
  if columns.length ≠ grid.cols then
    .error (.invalidDocument (.columnCount columns.length grid.cols))
  else
    grid.validate
    return { grid, columns }

def parts (s : Session) : Grid × ColumnSpecs := (s.grid, s.columns)

/-- An operation on the grid. -/
def onGrid {α : Type} (op : Grid → TableResult α × Grid) : InPlace Session α :=
  .part Session.grid (fun s grid => { s with grid }) op

/-- An operation on the registry. -/
def onColumns {α : Type} (op : ColumnSpecs → TableResult α × ColumnSpecs) : InPlace Session α :=
  .part Session.columns (fun s columns => { s with columns }) op

def beginSelectionInPlace (s : Session) (row col : Nat) : TableResult Unit × Session :=
  InPlace.perform s do
    InPlace.ask (·.grid.check row col)
    modify fun s => { s with selection := s.selection.begin row col }

def beginSelection (s : Session) (row col : Nat) : TableResult Session :=
  InPlace.changed (s.beginSelectionInPlace row col)

/-- Moves the free corner; places outside the grid are pulled back to its edge. -/
def extendSelection (s : Session) (row col : Nat) : Session :=
  let row := min row (s.grid.rows - 1)
  let col := min col (s.grid.cols - 1)
  { s with selection := s.selection.extend row col }

def endSelection (s : Session) : Session := { s with selection := s.selection.finish }

def selectAll (s : Session) : Session := { s with selection := .all s.grid.rows s.grid.cols }

def clampSelection (s : Session) : Session :=
  { s with selection := s.selection.clamp s.grid.rows s.grid.cols }

def addRow (s : Session) : Session := { s with grid := s.grid.addRow }

def addCol (s : Session) : Session :=
  { s with grid := s.grid.addCol, columns := s.columns.pushDefault }

def insertRowInPlace (s : Session) (pos : Nat) : TableResult Unit × Session :=
  InPlace.perform s <| onGrid (·.insertLineInPlace .row pos)

def insertRow (s : Session) (pos : Nat) : TableResult Session :=
  InPlace.changed (s.insertRowInPlace pos)

/-- Inserts a column into the grid, then into the registry. -/
def insertColInPlace (s : Session) (pos : Nat) : TableResult Unit × Session :=
  InPlace.perform s do
    onGrid (·.insertLineInPlace .column pos)
    onColumns (·.insertDefaultInPlace pos)

def insertCol (s : Session) (pos : Nat) : TableResult Session :=
  InPlace.changed (s.insertColInPlace pos)

def deleteRowInPlace (s : Session) (row : Nat) : TableResult Unit × Session :=
  InPlace.perform s do
    onGrid (·.deleteLineInPlace .row row)
    modify clampSelection

def deleteRow (s : Session) (row : Nat) : TableResult Session :=
  InPlace.changed (s.deleteRowInPlace row)

/-- Deletes a column of the grid, then of the registry, and pulls the selection back. -/
def deleteColInPlace (s : Session) (col : Nat) : TableResult Unit × Session :=
  InPlace.perform s do
    onGrid (·.deleteLineInPlace .column col)
    onColumns (·.removeInPlace col)
    modify clampSelection

def deleteCol (s : Session) (col : Nat) : TableResult Session :=
  InPlace.changed (s.deleteColInPlace col)

/-- Merges the selected rectangle. -/
def mergeSelectionInPlace (s : Session) : TableResult Unit × Session :=
  InPlace.perform s <| onGrid (·.mergeInPlace s.selection.range)

def mergeSelection (s : Session) : TableResult Session := InPlace.changed s.mergeSelectionInPlace

/-- Splits the regions that start in the selected rectangle, and counts them. -/
def splitSelectionInPlace (s : Session) : TableResult Nat × Session :=
  InPlace.perform s <| onGrid (·.splitInPlace s.selection.range)

def splitSelection (s : Session) : TableResult (Session × Nat) :=
  InPlace.answered s.splitSelectionInPlace

def setTextInPlace (s : Session) (row col : Nat) (text : String) : TableResult Bool × Session :=
  InPlace.perform s <| onGrid (·.setTextInPlace row col text)

def setText (s : Session) (row col : Nat) (text : String) : TableResult (Session × Bool) :=
  InPlace.answered (s.setTextInPlace row col text)

/-- Applies a style command to the selection, the toggles reading the focused cell. -/
def applyStyleInPlace (s : Session) (command : StyleCommand) : TableResult Nat × Session :=
  let (focusRow, focusCol) := s.selection.focus
  InPlace.perform s <| onGrid (·.applyStyleInPlace s.selection.range focusRow focusCol command)

def applyStyle (s : Session) (command : StyleCommand) : TableResult (Session × Nat) :=
  InPlace.answered (s.applyStyleInPlace command)

def setKindInPlace (s : Session) (col : Nat) (kind : ColumnKind) : TableResult Unit × Session :=
  InPlace.perform s <| onColumns (·.setKindInPlace col kind)

def setKind (s : Session) (col : Nat) (kind : ColumnKind) : TableResult Session :=
  InPlace.changed (s.setKindInPlace col kind)

def setWidthInPlace (s : Session) (col : Nat) (width : Option String) :
    TableResult Unit × Session :=
  InPlace.perform s <| onColumns (·.setWidthInPlace col width)

def setWidth (s : Session) (col : Nat) (width : Option String) : TableResult Session :=
  InPlace.changed (s.setWidthInPlace col width)

def mappings (s : Session) : List MappedColumn := s.columns.mapFor s.dialect

def latexAs (s : Session) (dialect : Dialect) : String := s.grid.latex dialect s.columns s.options

def latex (s : Session) : String := s.latexAs s.dialect

end Session
end LatexTable
