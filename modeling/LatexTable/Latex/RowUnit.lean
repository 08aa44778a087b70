import LatexTable.Column.Mapping
import LatexTable.Grid.Basic
import LatexTable.Latex.Source
/-!
The units of a row in a tabular body. A visible cell gives one unit as wide as the cell; below the
first row of a region one empty unit keeps the place of the region.
-/
namespace LatexTable
open Latex

inductive RowUnit where
  | visible (col : Nat) (cell : Cell)
  | continuation (col : Nat) (owner : Cell)
  deriving DecidableEq, Repr

namespace RowUnit

def col : RowUnit → Nat
  | .visible col _ => col
  | .continuation col _ => col

def cell : RowUnit → Cell
  | .visible _ cell => cell
  | .continuation _ owner => owner

/-- The number of columns that the unit takes. -/
def width (u : RowUnit) : Nat := max u.cell.colSpan 1

end RowUnit

/-- What a row holds at a column where its next unit may begin. -/
inductive UnitStart where
  | visible (cell : Cell)
  /-- The left edge of a region that began in an earlier row. -/
  | continuation (owner : Cell)
  /-- Another hidden cell of a region. -/
  | inside
  /-- A hidden cell without a look-up of its owner. -/
  | unowned
  /-- No cell at all. -/
  | outside
  deriving DecidableEq, Repr

namespace UnitStart

/-- The number of columns to go on from here. -/
def width : UnitStart → Nat
  | .visible c | .continuation c => max c.colSpan 1
  | .inside | .unowned | .outside => 1

/-- The unit that is written here. -/
def unit? (col : Nat) : UnitStart → Option RowUnit
  | .visible c => some (.visible col c)
  | .continuation owner => some (.continuation col owner)
  | .unowned => some (.continuation col .empty)
  | .inside | .outside => none

theorem width_pos (s : UnitStart) : 0 < s.width := by
  cases s <;> simp only [width] <;> omega

end UnitStart

namespace Grid

def unitStart (g : Grid) (row col : Nat) : UnitStart :=
  match g.get? row col with
  | none => .outside
  | some c =>
    if c.hidden then
      match g.ownerOf row col with
      | .ok (ownerRow, ownerCol) =>
        if ownerRow < row && ownerCol = col then .continuation (g.cellAt ownerRow ownerCol)
        else .inside
      | .error _ => .unowned
    else .visible c

/-- The columns, from one on, at which the units of a row are looked for, and what is there. -/
def unitStartsFrom (g : Grid) (row col : Nat) : List (Nat × UnitStart) :=
  if col < g.cols then
    let start := g.unitStart row col
    (col, start) ::
      if start = .outside then [] else g.unitStartsFrom row (col + start.width)
  else []
termination_by g.cols - col
decreasing_by
  have h := (g.unitStart row col).width_pos
  omega

def unitStarts (g : Grid) (row : Nat) : List (Nat × UnitStart) := g.unitStartsFrom row 0

/-- The units of a row, from left to right. -/
def rowUnits (g : Grid) (row : Nat) : List RowUnit :=
  (g.unitStarts row).filterMap fun (col, start) => start.unit? col

end Grid

/-- The kind of column that aligns its cells in this way. -/
def HAlign.columnKind : HAlign → ColumnKind
  | .left => .left
  | .center => .center
  | .right => .right
  | .justify => .paragraph

/-- What the units of a table share: its columns, and whether vertical lines are drawn. -/
structure TabularColumns where
  columns : List MappedColumn
  verticalRules : Bool
  deriving DecidableEq, Repr

namespace Cell

/-- The trimmed text with its emphasis and colour around it; a blank text takes none. -/
def emphasized (c : Cell) : String :=
  match Text.nonBlank? c.text with
  | none => ""
  | some text =>
    let text := if c.style.isItalic then "\\textit" ++ braced text else text
    let text := if c.style.isBold then "\\textbf" ++ braced text else text
    match c.style.foreground with
    | none => text
    | some color => "\\textcolor" ++ color.arguments ++ braced text

/-- The command that fills the cell with its background. -/
def fill? (c : Cell) : Option String :=
  c.style.background.map fun color => "\\cellcolor" ++ color.arguments

/-- The text of a visible cell without regard to columns. -/
def body (c : Cell) : String :=
  let text := c.emphasized
  let text :=
    if 1 < c.rowSpan then
      let position := (c.style.valign.map fun v => bracketed v.multirowLetter.toString).getD ""
      "\\multirow" ++ position ++ braced (toString c.rowSpan) ++ braced "*" ++ braced text
    else text
  match c.fill? with
  | none => text
  | some fill => fill ++ " " ++ text

end Cell

namespace TabularColumns

/-- Whether a cell is aligned otherwise than its column. -/
def overridesAlignment (t : TabularColumns) (col : Nat) (style : CellStyle) : Bool :=
  match style.halign, t.columns[col]? with
  | none, _ => false
  | some _, none => true
  | some h, some column => column.kind ≠ h.columnKind

/-- The column letter or token in a unit's own column specification. -/
def alignment (t : TabularColumns) (col width : Nat) (style : CellStyle) : String :=
  match style.halign, t.columns[col]? with
  | some .justify, some column =>
    if width = 1 && column.kind = .paragraph then column.token else "l"
  | some .justify, none => "l"
  | some h, _ => h.letter.toString
  | none, some column => column.alignLetter.toString
  | none, none => "c"

def unitSpec (t : TabularColumns) (col width : Nat) (style : CellStyle) : String :=
  let letter := t.alignment col width style
  if t.verticalRules then (if col = 0 then "|" else "") ++ letter ++ "|" else letter

/-- A unit that has a width and a column specification of its own. -/
def multicolumn (t : TabularColumns) (u : RowUnit) (text : String) : String :=
  "\\multicolumn" ++ braced (toString u.width) ++
    braced (t.unitSpec u.col u.width u.cell.style) ++ braced text

def unitText (t : TabularColumns) (u : RowUnit) : String :=
  match u with
  | .visible col c =>
    if 1 < u.width || t.overridesAlignment col c.style then t.multicolumn u c.body else c.body
  | .continuation _ owner =>
    let fill := owner.fill?.getD ""
    if 1 < u.width then t.multicolumn u fill else fill

def rowText (t : TabularColumns) (g : Grid) (row : Nat) : String :=
  " & ".intercalate ((g.rowUnits row).map t.unitText)

/-- The column specification of the whole table. -/
def spec (t : TabularColumns) : String :=
  if t.verticalRules then "|" ++ String.join (t.columns.map fun c => c.token ++ "|")
  else String.join (t.columns.map (·.token))

end TabularColumns
end LatexTable
