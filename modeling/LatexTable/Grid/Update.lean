import LatexTable.Grid.Basic
import LatexTable.InPlace
/-! Changing text and style of visible cells. Hidden cells are passed over. -/
namespace LatexTable

/-- What an update may change of a cell. -/
structure CellContent where
  text : String
  style : CellStyle
  deriving DecidableEq, Repr

namespace Cell

def content (c : Cell) : CellContent := ⟨c.text, c.style⟩

/-- The update of a visible cell; a hidden one stays as it is. -/
def update (c : Cell) (f : CellContent → CellContent) : Cell :=
  if c.hidden then c
  else { c with text := (f c.content).text, style := (f c.content).style }

end Cell

namespace Grid

/-- Updates the visible cells of a rectangle, each in a way of its own, and counts them. -/
def updateEachInPlace (g : Grid) (r : CellRange) (f : Nat → Nat → CellContent → CellContent) :
    TableResult Nat × Grid := InPlace.perform g do
  InPlace.ask (·.checkRange r)
  modify fun g => tabulate g.rows g.cols fun row col =>
    if r.contains row col then (g.cellAt row col).update (f row col) else g.cellAt row col
  return r.cells.countP fun (row, col) => !(g.cellAt row col).hidden

def updateEach (g : Grid) (r : CellRange) (f : Nat → Nat → CellContent → CellContent) :
    TableResult (Grid × Nat) :=
  InPlace.answered (g.updateEachInPlace r f)

/-- Updates the visible cells of a rectangle in the same way, and counts them. -/
def updateRangeInPlace (g : Grid) (r : CellRange) (f : CellContent → CellContent) :
    TableResult Nat × Grid :=
  g.updateEachInPlace r fun _ _ => f

def updateRange (g : Grid) (r : CellRange) (f : CellContent → CellContent) :
    TableResult (Grid × Nat) :=
  InPlace.answered (g.updateRangeInPlace r f)

/-- Updates one cell, and tells whether it was visible. -/
def updateCellInPlace (g : Grid) (row col : Nat) (f : CellContent → CellContent) :
    TableResult Bool × Grid := InPlace.perform g do
  InPlace.ask (·.check row col)
  if (g.cellAt row col).hidden then return false
  else
    modify fun g => tabulate g.rows g.cols fun r c =>
      if r = row && c = col then (g.cellAt r c).update f else g.cellAt r c
    return true

def updateCell (g : Grid) (row col : Nat) (f : CellContent → CellContent) :
    TableResult (Grid × Bool) :=
  InPlace.answered (g.updateCellInPlace row col f)

def setTextInPlace (g : Grid) (row col : Nat) (text : String) : TableResult Bool × Grid :=
  g.updateCellInPlace row col fun content => { content with text }

def setText (g : Grid) (row col : Nat) (text : String) : TableResult (Grid × Bool) :=
  InPlace.answered (g.setTextInPlace row col text)

def setStyle (g : Grid) (row col : Nat) (style : CellStyle) : TableResult (Grid × Bool) :=
  g.updateCell row col fun content => { content with style }

/-- Applies a style command to a rectangle, the toggles reading the focused cell. -/
def applyStyleInPlace (g : Grid) (r : CellRange) (focusRow focusCol : Nat)
    (command : StyleCommand) : TableResult Nat × Grid := InPlace.perform g do
  let focused ← InPlace.ask (·.cell focusRow focusCol)
  InPlace.call (·.updateRangeInPlace r fun content =>
    { content with style := command.apply focused.style content.style })

def applyStyle (g : Grid) (r : CellRange) (focusRow focusCol : Nat) (command : StyleCommand) :
    TableResult (Grid × Nat) :=
  InPlace.answered (g.applyStyleInPlace r focusRow focusCol command)

def clearStylesInPlace (g : Grid) (r : CellRange) : TableResult Nat × Grid :=
  g.updateRangeInPlace r fun content => { content with style := .unset }

def clearStyles (g : Grid) (r : CellRange) : TableResult (Grid × Nat) :=
  InPlace.answered (g.clearStylesInPlace r)

end Grid
end LatexTable
