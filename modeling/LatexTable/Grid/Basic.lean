import LatexTable.Grid.Cell
/-!
The grid: cells stored row by row. `get?` and `cellAt` are its view; two grids of one size with a
full store and the same view are equal.
-/
namespace LatexTable

structure Grid where
  rows : Nat
  cols : Nat
  cells : Array Cell
  deriving DecidableEq, Repr

namespace Grid

/-- The grid with the given cell at each place. -/
def tabulate (rows cols : Nat) (f : Nat → Nat → Cell) : Grid :=
  ⟨rows, cols, Array.ofFn fun i : Fin (rows * cols) => f (i / cols) (i % cols)⟩

def get? (g : Grid) (row col : Nat) : Option Cell :=
  if row < g.rows && col < g.cols then g.cells[row * g.cols + col]? else none

/-- The cell at a place, empty outside the grid. -/
def cellAt (g : Grid) (row col : Nat) : Cell := (g.get? row col).getD .empty

/-- Places, row by row. -/
def places (g : Grid) : List (Nat × Nat) :=
  (List.range g.rows).flatMap fun row => (List.range g.cols).map fun col => (row, col)

/-- An empty grid; it has at least one row and one column. -/
def blank (rows cols : Nat) : Grid :=
  tabulate (max rows 1) (max cols 1) fun _ _ => .empty

/-- The length of the longest row. -/
def widest (texts : List (List String)) : Nat := (texts.map List.length).foldl max 0

/-- The grid of a given size that holds the texts; places without a text are empty. -/
def ofTextsIn (rows cols : Nat) (texts : List (List String)) : Grid :=
  let stored := texts.toArray.map List.toArray
  tabulate rows cols fun row col => .ofText (((stored[row]?.getD #[])[col]?).getD "")

/-- The grid of the texts, as wide as the longest row. -/
def ofTexts (texts : List (List String)) : Grid :=
  ofTextsIn (max texts.length 1) (max (widest texts) 1) texts

def default : Grid := blank 4 4

/-- The number of lines along an axis. -/
def lineCount (g : Grid) : Axis → Nat
  | .row => g.rows
  | .column => g.cols

def outOfBounds (g : Grid) (row col : Nat) : TableError := .outOfBounds row col g.rows g.cols

def check (g : Grid) (row col : Nat) : TableResult Unit :=
  if row < g.rows && col < g.cols then .ok () else .error (g.outOfBounds row col)

def checkRange (g : Grid) (r : CellRange) : TableResult Unit := do
  g.check r.minRow r.minCol
  g.check r.maxRow r.maxCol

def cell (g : Grid) (row col : Nat) : TableResult Cell := do
  g.check row col
  return g.cellAt row col

def row (g : Grid) (row : Nat) : TableResult (List Cell) := do
  g.check row 0
  return (List.range g.cols).map (g.cellAt row)

/-- All rows of cells. -/
def rowList (g : Grid) : List (List Cell) :=
  (List.range g.rows).map fun row => (List.range g.cols).map (g.cellAt row)

/-- The merged regions, in the order of their top left cells. -/
def regions (g : Grid) : List CellRange :=
  g.places.filterMap fun (row, col) =>
    let c := g.cellAt row col
    if c.isMaster then some (c.footprint row col) else none

/-- The places above and to the left, nearest row first and nearest column first. -/
def placesBack (row col : Nat) : List (Nat × Nat) :=
  (List.range (row + 1)).reverse.flatMap fun r =>
    (List.range (col + 1)).reverse.map fun c => (r, c)

/-- The visible cell whose region covers the place. -/
def ownerAt (g : Grid) (row col : Nat) : Nat × Nat :=
  if (g.cellAt row col).hidden then
    ((placesBack row col).find? fun (r, c) =>
      let master := g.cellAt r c
      master.isMaster && (master.footprint r c).contains row col).getD (row, col)
  else (row, col)

def ownerOf (g : Grid) (row col : Nat) : TableResult (Nat × Nat) := do
  g.check row col
  return g.ownerAt row col

end Grid
end LatexTable
