import LatexTable.Grid.Range
import LatexTable.Style
/-!
Cells. The top left cell of a merged region is visible and carries the spans; every other cell of
the region is a blank hidden cell, its shadow.
-/
namespace LatexTable

structure Cell where
  text : String := ""
  rowSpan : Nat := 1
  colSpan : Nat := 1
  hidden : Bool := false
  style : CellStyle := {}
  deriving DecidableEq, Repr

namespace Cell

def empty : Cell := {}

def shadow : Cell := { hidden := true }

def ofText (text : String) : Cell := { text }

def isSpanning (c : Cell) : Bool := 1 < c.rowSpan || 1 < c.colSpan

/-- Whether the cell owns a merged region. -/
def isMaster (c : Cell) : Bool := !c.hidden && c.isSpanning

/-- Whether the text holds more than white space. -/
def hasContent (c : Cell) : Bool := (Text.nonBlank? c.text).isSome

/-- The rectangle that the cell covers when it stands at the given place. -/
def footprint (c : Cell) (row col : Nat) : CellRange :=
  .ofSpan row col c.rowSpan c.colSpan

/-- The cell standing alone, with its text and style. -/
def alone (c : Cell) : Cell := { c with rowSpan := 1, colSpan := 1, hidden := false }

/-- The number of lines that the cell covers along an axis. -/
def span (c : Cell) : Axis → Nat
  | .row => c.rowSpan
  | .column => c.colSpan

def withSpan (c : Cell) (axis : Axis) (n : Nat) : Cell :=
  match axis with
  | .row => { c with rowSpan := n }
  | .column => { c with colSpan := n }

end Cell
end LatexTable
