import LatexTable.Grid.Basic
import LatexTable.Latex.Source
/-!
Horizontal lines between rows. Below a row the line is broken where a region runs on into the next
row.
-/
namespace LatexTable

inductive LineStyle where
  | normal | top | mid | bottom
  deriving DecidableEq, Repr

/-- A line over the columns from `start` to before `stop`; without bounds it is a full line. -/
structure HorizontalLine where
  start : Option Nat := none
  stop : Option Nat := none
  style : LineStyle
  deriving DecidableEq, Repr

namespace HorizontalLine
open Latex

def full (style : LineStyle) : HorizontalLine := { style }

def partially (start stop : Nat) (style : LineStyle) : HorizontalLine :=
  ⟨some start, some stop, style⟩

/-- First and last column, counted from one, of a line that is not full. -/
def bounds? (l : HorizontalLine) (cols : Nat) : Option (Nat × Nat) :=
  match l.start, l.stop with
  | none, none => none
  | start, stop => some (start.getD 0 + 1, stop.getD cols)

def latex (l : HorizontalLine) (cols : Nat) : String :=
  match l.style, l.bounds? cols with
  | .top, _ => "\\toprule"
  | .bottom, _ => "\\bottomrule"
  | .mid, none => "\\midrule"
  | .mid, some (a, b) => "\\cmidrule(lr)" ++ braced s!"{a}-{b}"
  | .normal, none => "\\hline"
  | .normal, some (a, b) => "\\cline" ++ braced s!"{a}-{b}"

end HorizontalLine

namespace Grid

/-- The regions that run through the boundary below a row. -/
def crossing (g : Grid) (row : Nat) : List CellRange :=
  g.regions.filter fun r => r.minRow ≤ row && row < r.maxRow

/-- For every column, whether a region runs through the boundary below the row. -/
def blocked (g : Grid) (row : Nat) : List Bool :=
  let crossing := g.crossing row
  (List.range g.cols).map fun col => crossing.any fun r => r.minCol ≤ col && col ≤ r.maxCol

/-- The runs of columns that are not blocked: from `col` on, `run` being where the current run
began. -/
def freeRuns : Nat → Option Nat → List Bool → List (Nat × Nat)
  | _, none, [] => []
  | col, some start, [] => [(start, col)]
  | col, none, blocked :: rest => freeRuns (col + 1) (if blocked then none else some col) rest
  | col, some start, blocked :: rest =>
    if blocked then (start, col) :: freeRuns (col + 1) none rest
    else freeRuns (col + 1) (some start) rest

/-- The lines to draw below a row. -/
def boundaryLines (g : Grid) (row : Nat) (style : LineStyle) : List HorizontalLine :=
  let blocked := g.blocked row
  if blocked.contains true then
    (freeRuns 0 none blocked).map fun (start, stop) => .partially start stop style
  else [.full style]

/-- The boundary below a row as source, `none` when no line is drawn. -/
def boundaryText? (g : Grid) (row : Nat) (style : LineStyle) : Option String :=
  let lines := g.boundaryLines row style
  if lines.isEmpty then none
  else some (" ".intercalate (lines.map (·.latex g.cols)))

end Grid
end LatexTable
