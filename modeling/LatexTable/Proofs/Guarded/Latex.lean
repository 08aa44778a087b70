import LatexTable.Latex.Render
import LatexTable.Proofs.Guarded.Check
import LatexTable.Proofs.Latex.BoundaryLines
/-!
Writing a table with every access guarded: the lines below a row mark a slice of the columns, the
units of a row are found by a walk through it, and the declarations of the modern dialect go over
the rows as pieces of the store.
-/
namespace LatexTable

namespace Guarded

/-- Marks the columns of a region that runs through the boundary below a row. -/
def block (row : Nat) (blocked : List Bool) (r : CellRange) : Guarded (List Bool) := do
  if r.minRow ≤ row && row < r.maxRow then
    let stop ← add r.maxCol 1
    bounds r.minCol stop blocked.length
    return blocked.mapIdx fun col flag => flag || (r.minCol ≤ col && col < stop)
  else return blocked

def blocked (g : Grid) (row : Nat) : Guarded (List Bool) := do
  (← regions g).foldlM (block row) (List.replicate g.cols false)

def boundaryLines (g : Grid) (row : Nat) (style : LineStyle) : Guarded (List HorizontalLine) := do
  let blocked ← blocked g row
  if blocked.contains true then
    return (Grid.freeRuns 0 none blocked).map fun (start, stop) => .partially start stop style
  else return [.full style]

/-- The columns of a line that is not full count from one. -/
def lineText (l : HorizontalLine) (cols : Nat) : Guarded String := do
  match l.bounds? cols with
  | none => return l.latex cols
  | some _ =>
    let _ ← add (l.start.getD 0) 1
    return l.latex cols

def boundaryText? (g : Grid) (row : Nat) (style : LineStyle) : Guarded (Option String) := do
  let lines ← boundaryLines g row style
  if lines.isEmpty then return none
  else return some (" ".intercalate (← lines.mapM fun l => lineText l g.cols))

def unitStart (g : Grid) (row col : Nat) : Guarded UnitStart := do
  match ← get? g row col with
  | none => return .outside
  | some c =>
    if c.hidden then
      match ← ownerOf g row col with
      | .ok (ownerRow, ownerCol) =>
        if ownerRow < row && ownerCol = col then
          return .continuation ((← get? g ownerRow ownerCol).getD .empty)
        else return .inside
      | .error _ => return .unowned
    else return .visible c

/-- The walk through a row. Its column is a sum of widths. -/
def unitStartsFrom (g : Grid) (row col : Nat) : Guarded (List (Nat × UnitStart)) :=
  if col < g.cols then do
    let start ← unitStart g row col
    if start = .outside then return [(col, start)]
    else
      match _ : add col start.width with
      | .error fault => .error fault
      | .ok next => return (col, start) :: (← unitStartsFrom g row next)
  else return []
termination_by g.cols - col
decreasing_by
  have hpos := start.width_pos
  have hsum := eq_of_add ‹add col start.width = .ok next›
  omega

def rowUnits (g : Grid) (row : Nat) : Guarded (List RowUnit) := do
  let starts ← unitStartsFrom g row 0
  return starts.filterMap fun (col, start) => start.unit? col

def rowLine (t : TabularColumns) (g : Grid) (row : Nat) : Guarded String := do
  let units ← rowUnits g row
  return "  " ++ " & ".intercalate (units.map t.unitText) ++ " \\\\"

/-- The lines of one row: its units, and what is drawn below them on request. -/
def rowLines (t : TabularColumns) (g : Grid) (style : LineStyle) (below : Nat → Bool) (row : Nat) :
    Guarded (List String) := do
  let line ← rowLine t g row
  if below row then return line :: (← boundaryText? g row style).toList else return [line]

def plainTable (g : Grid) (columns : ColumnSpecs) (o : TableOptions) : Guarded String := do
  let t : TabularColumns := ⟨columns.resolve .plain g.cols, o.verticalRules⟩
  let lines ← (List.range g.rows).mapM (rowLines t g .normal fun _ => o.horizontalRules)
  return Latex.tabular o t ((if o.horizontalRules then ["\\hline"] else []) ++ lines.flatten)

def rulesTable (g : Grid) (columns : ColumnSpecs) (o : TableOptions) : Guarded String := do
  let t : TabularColumns := ⟨columns.resolve .rules g.cols, false⟩
  let lastRow ← sub g.rows 1
  let lines ← (List.range g.rows).mapM
    (rowLines t g .mid fun row => row < lastRow && (row = 0 || o.horizontalRules))
  return Latex.tabular o t (["\\toprule"] ++ lines.flatten ++ ["\\bottomrule"])

/-- The header entry of a cell, whose row and column count from one. -/
def cellEntry? (c : Cell) (row col : Nat) : Guarded (Option String) := do
  if c.hidden || (!c.isSpanning && !c.style.hasEffect) then return none
  else
    let _ ← add row 1
    let _ ← add col 1
    return Latex.cellEntry? c row col

def cellEntries (lines : List (List Cell)) : Guarded (List String) := do
  let found ← lines.zipIdx.mapM fun (line, row) =>
    line.zipIdx.mapM fun (c, col) => cellEntry? c row col
  return found.flatten.filterMap id

def tblrTable (g : Grid) (columns : ColumnSpecs) (o : TableOptions) : Guarded String := do
  let environment := if o.longTable then "longtblr" else "tblr"
  let outer := Latex.outerKeys o
  let keys := if outer.isEmpty then "" else Latex.bracketed (",".intercalate outer)
  let lines ← rowList g
  let definitions := (lines.flatten.flatMap Latex.cellDefinitions).foldl
    (fun seen line => if seen.contains line then seen else seen ++ [line]) []
  let entries ← cellEntries lines
  let header := ("colspec = " ++ Latex.braced (Latex.tblrColspec g columns)) ::
    ((if o.horizontalRules then ["hlines"] else []) ++
      (if o.verticalRules then ["vlines"] else []) ++ entries)
  return Text.trimEnd <| Latex.unlines <|
    definitions ++ o.openingLines ++
      [Latex.beginning environment ++ keys ++ "\x7b", "  " ++ ",\n  ".intercalate header, "\x7d"] ++
      lines.map Latex.bodyLine ++ [Latex.ending environment] ++ o.closingLines

def latex (g : Grid) (dialect : Dialect) (columns : ColumnSpecs) (o : TableOptions) :
    Guarded String :=
  match dialect with
  | .modern => tblrTable g columns o
  | .plain => plainTable g columns o
  | .rules => rulesTable g columns o

end Guarded

namespace Grid

variable {g : Grid} {R : Set CellRange} {row col : Nat} {style : LineStyle} {columns : ColumnSpecs}
  {o : TableOptions}

/-- Whether a region runs through the boundary below a row in a column. -/
def blocks (row col : Nat) (r : CellRange) : Bool :=
  (r.minRow ≤ row && row < r.maxRow) && (r.minCol ≤ col && col ≤ r.maxCol)

theorem blocked_eq :
    g.blocked row = (List.range g.cols).map fun col => g.regions.any (blocks row col) := by
  apply List.map_congr_left
  intro col _
  exact List.any_filter

namespace Layout

/-- One region more is marked. -/
theorem block_eq (h : Layout g R) (hf : g.Fits) {r : CellRange} (hr : r ∈ R) (d : List CellRange) :
    Guarded.block row ((List.range g.cols).map fun col => d.any (blocks row col)) r =
      .ok ((List.range g.cols).map fun col => (d ++ [r]).any (blocks row col)) := by
  have hord : r.minCol ≤ r.maxCol := h.ordered r hr .column
  have hlast : r.maxCol < g.cols := h.inside r hr .column
  have hmax : g.cols ≤ maxIndex := h.lineCount_le hf .column
  simp only [List.any_append, List.any_cons, List.any_nil, Bool.or_false]
  unfold Guarded.block
  split
  · rename_i hcross
    rw [Guarded.add_eq (hlast.trans_le hmax), Guarded.ok_bind,
      Guarded.bounds_eq (Nat.le_succ_of_le hord) (by
        rw [List.length_map, List.length_range]
        exact hlast), Guarded.ok_bind]
    apply congrArg Except.ok
    apply List.ext_getElem (by simp)
    intro col _ _
    have hcol : decide (col < r.maxCol + 1) = decide (col ≤ r.maxCol) := by
      rw [decide_eq_decide, Nat.lt_succ_iff]
    simp only [List.getElem_mapIdx, List.getElem_map, List.getElem_range, blocks, hcross, hcol,
      Bool.true_and]
  · rename_i hcross
    apply congrArg Except.ok
    apply List.map_congr_left
    intro col _
    rw [blocks, Bool.eq_false_iff.mpr hcross, Bool.false_and, Bool.or_false]

theorem blocked_guarded (h : Layout g R) (hf : g.Fits) :
    Guarded.blocked g row = .ok (g.blocked row) := by
  have hempty : List.replicate g.cols false =
      (List.range g.cols).map fun col => ([] : List CellRange).any (blocks row col) := by
    rw [← List.length_range (n := g.cols), ← List.map_const', List.length_range]
    rfl
  have hloop := Guarded.foldlM_eq (l := g.regions) (f := Guarded.block row)
    (s := fun d => (List.range g.cols).map fun col => d.any (blocks row col))
    fun d r rest hl => h.block_eq hf ((h.mem_regions (h.indexed hf)).mp (by simp [hl])) d
  rw [Guarded.blocked, (h.stored hf).regions_eq, Guarded.ok_bind, blocked_eq, hempty]
  exact hloop

theorem boundaryLines_guarded (h : Layout g R) (hf : g.Fits) :
    Guarded.boundaryLines g row style = .ok (g.boundaryLines row style) := by
  rw [Guarded.boundaryLines, h.blocked_guarded hf, Guarded.ok_bind, boundaryLines]
  split <;> rfl

theorem boundaryText?_guarded (h : Layout g R) (hf : g.Fits) :
    Guarded.boundaryText? g row style = .ok (g.boundaryText? row style) := by
  have hmax : g.cols ≤ maxIndex := h.lineCount_le hf .column
  have hline : ∀ l ∈ g.boundaryLines row style,
      Guarded.lineText l g.cols = .ok (l.latex g.cols) := by
    intro l hl
    unfold boundaryLines at hl
    dsimp only at hl
    split at hl
    · obtain ⟨⟨start, stop⟩, hrun, rfl⟩ := List.mem_map.mp hl
      obtain ⟨-, hlt, hstop⟩ := bounds_of_mem_freeRuns no_run _ hrun
      rw [length_blocked, Nat.zero_add] at hstop
      have hstart : start < g.cols := hlt.trans_le hstop
      have hadd : Guarded.add start 1 = .ok (start + 1) := Guarded.add_eq (hstart.trans_le hmax)
      simp only [Guarded.lineText, HorizontalLine.bounds?, HorizontalLine.partially,
        Option.getD_some, hadd]
      rfl
    · obtain rfl := List.mem_singleton.mp hl
      rfl
  rw [Guarded.boundaryText?, h.boundaryLines_guarded hf, Guarded.ok_bind, boundaryText?]
  split
  · rfl
  · rw [Guarded.mapM_eq hline]
    rfl

end Layout

theorem Stored.unitStart_eq (h : g.Stored) :
    Guarded.unitStart g row col = .ok (g.unitStart row col) := by
  unfold Guarded.unitStart unitStart
  rw [h.get?_eq, Guarded.ok_bind]
  cases g.get? row col with
  | none => rfl
  | some c =>
    dsimp only
    split
    · rw [h.ownerOf_eq, Guarded.ok_bind]
      cases g.ownerOf row col with
      | error e => rfl
      | ok owner =>
        dsimp only
        split
        · rw [h.get?_eq]
          rfl
        · rfl
    · rfl

namespace Layout

theorem unitStartsFrom_guarded (h : Layout g R) (hf : g.Fits) (hr : row < g.rows) :
    ∀ col, LeftEdge R row col →
      Guarded.unitStartsFrom g row col = .ok (g.unitStartsFrom row col) := by
  refine h.edge_induction hf hr (fun col hend => ?_) fun col hc hedge ih => ?_
  · rw [Guarded.unitStartsFrom, if_neg hend.not_gt, unitStartsFrom_of_le hend]
    rfl
  · have hmax : g.cols ≤ maxIndex := h.lineCount_le hf .column
    have hnext := h.unitStartsFrom_edge hf hr hc hedge
    have hinside := h.unitStart_ne_outside hf hr hc hedge
    rw [Guarded.unitStartsFrom, if_pos hc, (h.stored hf).unitStart_eq, Guarded.ok_bind,
      if_neg hinside, hnext]
    split
    · rename_i fault hfault
      rw [Guarded.add_eq ((h.width_le hf hr hc hedge).trans hmax)] at hfault
      cases hfault
    · rename_i next hsum
      rw [Guarded.eq_of_add hsum, ih]
      rfl

theorem rowUnits_guarded (h : Layout g R) (hf : g.Fits) (hr : row < g.rows) :
    Guarded.rowUnits g row = .ok (g.rowUnits row) := by
  rw [Guarded.rowUnits, h.unitStartsFrom_guarded hf hr 0 leftEdge_zero]
  rfl

theorem rowLine_guarded (h : Layout g R) (hf : g.Fits) (hr : row < g.rows) (t : TabularColumns) :
    Guarded.rowLine t g row = .ok (Latex.rowLine t g row) := by
  rw [Guarded.rowLine, h.rowUnits_guarded hf hr]
  rfl

/-- The lines of the rows, when the boundaries below some of them are drawn. -/
theorem rowLines_guarded (h : Layout g R) (hf : g.Fits) (t : TabularColumns) (below : Nat → Bool) :
    (List.range g.rows).mapM (Guarded.rowLines t g style below) =
      .ok ((List.range g.rows).map fun row => Latex.rowLine t g row ::
        if below row then (g.boundaryText? row style).toList else []) := by
  apply Guarded.mapM_eq
  intro row hrow
  rw [Guarded.rowLines, h.rowLine_guarded hf (List.mem_range.mp hrow), Guarded.ok_bind]
  split
  · rw [h.boundaryText?_guarded hf]
    rfl
  · rfl

theorem plainTable_guarded (h : Layout g R) (hf : g.Fits) :
    Guarded.plainTable g columns o = .ok (Latex.plainTable g columns o) := by
  rw [Guarded.plainTable, h.rowLines_guarded hf]
  rfl

theorem rulesTable_guarded (h : Layout g R) (hf : g.Fits) :
    Guarded.rulesTable g columns o = .ok (Latex.rulesTable g columns o) := by
  have hrows : 1 ≤ g.rows := h.pos .row
  rw [Guarded.rulesTable, Guarded.sub_eq hrows, Guarded.ok_bind, h.rowLines_guarded hf,
    Guarded.ok_bind, Latex.rulesTable]
  simp only [Nat.lt_sub_iff_add_lt]
  rfl

theorem cellEntries_guarded (h : Layout g R) (hf : g.Fits) :
    Guarded.cellEntries g.rowList = .ok (Latex.cellEntries g) := by
  have hrows : g.rows ≤ maxIndex := h.lineCount_le hf .row
  have hcols : g.cols ≤ maxIndex := h.lineCount_le hf .column
  have hcell : ∀ row < g.rows, ∀ col < g.cols, Guarded.cellEntry? (g.cellAt row col) row col =
      .ok (Latex.cellEntry? (g.cellAt row col) row col) := by
    intro row hr col hc
    rw [Guarded.cellEntry?]
    split
    · rename_i hnone
      rw [Latex.cellEntry?, if_pos hnone]
      rfl
    · rw [Guarded.add_eq (by omega), Guarded.ok_bind, Guarded.add_eq (by omega)]
      rfl
  rw [Guarded.cellEntries, mapM_rowList hcell, Guarded.ok_bind, flatten_rows, List.filterMap_map]
  rfl

theorem tblrTable_guarded (h : Layout g R) (hf : g.Fits) :
    Guarded.tblrTable g columns o = .ok (Latex.tblrTable g columns o) := by
  have hpos : 0 < g.cols := h.pos .column
  rw [Guarded.tblrTable]
  dsimp only
  rw [(h.stored hf).rowList_eq hpos, Guarded.ok_bind, h.cellEntries_guarded hf]
  rfl

theorem latex_guarded (h : Layout g R) (hf : g.Fits) (dialect : Dialect) :
    Guarded.latex g dialect columns o = .ok (g.latex dialect columns o) := by
  cases dialect with
  | modern => exact h.tblrTable_guarded hf
  | plain => exact h.plainTable_guarded hf
  | rules => exact h.rulesTable_guarded hf

end Layout
end Grid
end LatexTable
