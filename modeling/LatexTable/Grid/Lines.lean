import LatexTable.Grid.Basic
import LatexTable.InPlace
/-!
Inserting and deleting a line of cells: a row, or a column. Both are written once for either axis;
a place is given by its line along the axis and its offset across it.
-/
namespace LatexTable

namespace Axis

/-- The place on a line at an offset. -/
def place (axis : Axis) (line offset : Nat) : Nat × Nat :=
  match axis with
  | .row => (line, offset)
  | .column => (offset, line)

def other : Axis → Axis
  | .row => .column
  | .column => .row

/-- The line of a place. -/
def line (axis : Axis) (row col : Nat) : Nat :=
  match axis with
  | .row => row
  | .column => col

end Axis

namespace CellRange

/-- Whether a line lies in the rectangle. -/
def hasLine (r : CellRange) (axis : Axis) (line : Nat) : Bool :=
  r.first axis ≤ line && line ≤ r.last axis

/-- The number of lines along an axis. -/
def lineCount (r : CellRange) : Axis → Nat
  | .row => r.rowCount
  | .column => r.colCount

/-- Whether the first cell is the one on the line at the offset. -/
def startsOn (r : CellRange) (axis : Axis) (line offset : Nat) : Bool :=
  r.first axis = line && r.first axis.other = offset

end CellRange

namespace Grid

/-- The grid with one line more or less along an axis, given by line and offset. -/
def tabulateLines (g : Grid) (axis : Axis) (lines : Nat) (f : Nat → Nat → Cell) : Grid :=
  match axis with
  | .row => tabulate lines g.cols f
  | .column => tabulate g.rows lines fun row col => f col row

def cellOn (g : Grid) (axis : Axis) (line offset : Nat) : Cell :=
  let (row, col) := axis.place line offset
  g.cellAt row col

def outsideLine (g : Grid) (axis : Axis) (line : Nat) : TableError :=
  let (row, col) := axis.place line 0
  g.outOfBounds row col

def checkLine (g : Grid) (axis : Axis) (line : Nat) : TableResult Unit :=
  let (row, col) := axis.place line 0
  g.check row col

/-- The regions that run through a line inserted before `pos`. -/
def runningThrough (g : Grid) (axis : Axis) (pos : Nat) : List CellRange :=
  g.regions.filter fun r => r.first axis < pos && pos ≤ r.last axis

/-- The regions that have a line. -/
def meeting (g : Grid) (axis : Axis) (line : Nat) : List CellRange :=
  g.regions.filter (·.hasLine axis line)

/-- A cell after a line is inserted before `pos`, the crossing regions running through the new line:
their first cells span one line more, and the new cells in them are shadows. -/
def insertedCell (g : Grid) (axis : Axis) (pos : Nat) (crossing : List CellRange)
    (line offset : Nat) : Cell :=
  if line < pos then
    let c := g.cellOn axis line offset
    if crossing.any (·.startsOn axis line offset) then c.withSpan axis (c.span axis + 1) else c
  else if line = pos then
    if crossing.any (·.hasLine axis.other offset) then .shadow else .empty
  else g.cellOn axis (line - 1) offset

/-- Inserts a line before `pos`. Regions that run through the new line grow over it. -/
def insertLineInPlace (g : Grid) (axis : Axis) (pos : Nat) : TableResult Unit × Grid :=
  InPlace.perform g do
    if g.lineCount axis < pos then throw (g.outsideLine axis pos)
    else modify fun g =>
      let crossing := g.runningThrough axis pos
      g.tabulateLines axis (g.lineCount axis + 1) (g.insertedCell axis pos crossing)

def insertLine (g : Grid) (axis : Axis) (pos : Nat) : TableResult Grid :=
  InPlace.changed (g.insertLineInPlace axis pos)

/-- The cell in the role of the first cell of a region that loses its first line. -/
def heir (g : Grid) (axis : Axis) (r : CellRange) (c : Cell) : Cell :=
  let master : Cell :=
    { c with
      hidden := false, rowSpan := r.rowCount, colSpan := r.colCount
      style := (g.cellAt r.minRow r.minCol).style }
  master.withSpan axis (r.lineCount axis - 1)

/-- A cell before the line `pos` is taken out, the given regions being those on it. -/
def settledCell (g : Grid) (axis : Axis) (pos : Nat) (met : List CellRange) (line offset : Nat) :
    Cell :=
  let c := g.cellOn axis line offset
  match met.find? fun r =>
      1 < r.lineCount axis && line = pos + 1 && r.startsOn axis pos offset with
  | some r => g.heir axis r c
  | none =>
    if met.any fun r => r.first axis < pos && r.startsOn axis line offset then
      c.withSpan axis (c.span axis - 1)
    else c

/-- The line that comes to stand at an index when the line `pos` is taken out; where an index
comes to stand when a line is inserted before `pos`. -/
def shifted (pos line : Nat) : Nat := if line < pos then line else line + 1

/-- Deletes a line. A region that starts before it loses one line; a region that starts on it and
has more lines passes its shape and style, but not its text, to the first cell of its next line. -/
def deleteLineInPlace (g : Grid) (axis : Axis) (pos : Nat) : TableResult Unit × Grid :=
  InPlace.perform g do
    InPlace.ask (·.checkLine axis pos)
    if g.lineCount axis = 1 then throw (.minimumSize axis)
    else modify fun g =>
      let met := g.meeting axis pos
      g.tabulateLines axis (g.lineCount axis - 1) fun line offset =>
        g.settledCell axis pos met (shifted pos line) offset

def deleteLine (g : Grid) (axis : Axis) (pos : Nat) : TableResult Grid :=
  InPlace.changed (g.deleteLineInPlace axis pos)

def insertRow (g : Grid) (pos : Nat) : TableResult Grid := g.insertLine .row pos

def insertCol (g : Grid) (pos : Nat) : TableResult Grid := g.insertLine .column pos

def deleteRow (g : Grid) (pos : Nat) : TableResult Grid := g.deleteLine .row pos

def deleteCol (g : Grid) (pos : Nat) : TableResult Grid := g.deleteLine .column pos

/-- Appends a line; that place exists, so the answer is passed over. -/
def addLine (g : Grid) (axis : Axis) : Grid := (g.insertLineInPlace axis (g.lineCount axis)).2

def addRow (g : Grid) : Grid := g.addLine .row

def addCol (g : Grid) : Grid := g.addLine .column

/-- Whether a cell on the line has content. -/
def lineHasContent (g : Grid) (axis : Axis) (pos : Nat) : TableResult Bool := do
  g.checkLine axis pos
  return (List.range (g.lineCount axis.other)).any fun offset =>
    (g.cellOn axis pos offset).hasContent

def rowHasContent (g : Grid) (row : Nat) : TableResult Bool := g.lineHasContent .row row

def colHasContent (g : Grid) (col : Nat) : TableResult Bool := g.lineHasContent .column col

end Grid
end LatexTable
