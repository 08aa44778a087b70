import LatexTable.Proofs.Column.Registry
import LatexTable.Proofs.Grid.Reachable
import LatexTable.Session
/-!
What every operation of a session keeps: a reachable grid, a registry as long as the grid is wide,
and a selection on the grid. An operation on one part is refused by the checks of that part; one on
grid and registry is refused by the grid alone, so that a refused call changes nothing.
-/
namespace LatexTable
open Result InPlace

namespace Selection

variable {s : Selection} {row col rows cols rows' cols' : Nat}

/-- Both corners are cells of a grid of the given size. -/
def Inside (s : Selection) (rows cols : Nat) : Prop :=
  (s.startRow < rows ∧ s.startCol < cols) ∧ s.endRow < rows ∧ s.endCol < cols

theorem Inside.mono (h : s.Inside rows cols) (hr : rows ≤ rows') (hc : cols ≤ cols') :
    s.Inside rows' cols' :=
  ⟨⟨h.1.1.trans_le hr, h.1.2.trans_le hc⟩, h.2.1.trans_le hr, h.2.2.trans_le hc⟩

theorem begin_inside (h : row < rows ∧ col < cols) : (s.begin row col).Inside rows cols := ⟨h, h⟩

theorem Inside.extend (h : s.Inside rows cols) (hrc : row < rows ∧ col < cols) :
    (s.extend row col).Inside rows cols := by
  unfold Selection.extend
  split
  · exact ⟨h.1, hrc⟩
  · exact h

theorem all_inside (hr : 0 < rows) (hc : 0 < cols) : (all rows cols).Inside rows cols :=
  ⟨⟨hr, hc⟩, Nat.sub_one_lt hr.ne', Nat.sub_one_lt hc.ne'⟩

theorem clamp_inside (hr : 0 < rows) (hc : 0 < cols) : (s.clamp rows cols).Inside rows cols := by
  unfold Inside clamp
  refine ⟨⟨?_, ?_⟩, ?_, ?_⟩ <;> dsimp only <;> omega

theorem range_ordered : s.range.Ordered :=
  CellRange.ofCorners_ordered s.startRow s.startCol s.endRow s.endCol

theorem Inside.range_last_lt {g : Grid} (h : s.Inside g.rows g.cols) :
    ∀ axis, s.range.last axis < g.lineCount axis := by
  obtain ⟨⟨hsr, hsc⟩, her, hec⟩ := h
  rintro (_ | _)
  · exact max_lt hsr her
  · exact max_lt hsc hec

end Selection

namespace Session

/-- A call of an operation of a session. -/
inductive Edit where
  | beginSelection (row col : Nat)
  | extendSelection (row col : Nat)
  | endSelection
  | selectAll
  | addRow
  | addCol
  | insertRow (pos : Nat)
  | insertCol (pos : Nat)
  | deleteRow (row : Nat)
  | deleteCol (col : Nat)
  | mergeSelection
  | splitSelection
  | setText (row col : Nat) (text : String)
  | applyStyle (command : StyleCommand)
  | setKind (col : Nat) (kind : ColumnKind)
  | setWidth (col : Nat) (width : Option String)
  | setDialect (dialect : Dialect)
  | setOptions (options : TableOptions)

/-- What a call answers, without the value, and the session that it leaves. -/
def call (s : Session) : Edit → TableResult Unit × Session
  | .beginSelection row col => s.beginSelectionInPlace row col
  | .extendSelection row col => (.ok (), s.extendSelection row col)
  | .endSelection => (.ok (), s.endSelection)
  | .selectAll => (.ok (), s.selectAll)
  | .addRow => (.ok (), s.addRow)
  | .addCol => (.ok (), s.addCol)
  | .insertRow pos => s.insertRowInPlace pos
  | .insertCol pos => s.insertColInPlace pos
  | .deleteRow row => s.deleteRowInPlace row
  | .deleteCol col => s.deleteColInPlace col
  | .mergeSelection => s.mergeSelectionInPlace
  | .splitSelection => silent s.splitSelectionInPlace
  | .setText row col text => silent (s.setTextInPlace row col text)
  | .applyStyle command => silent (s.applyStyleInPlace command)
  | .setKind col kind => s.setKindInPlace col kind
  | .setWidth col width => s.setWidthInPlace col width
  | .setDialect dialect => (.ok (), { s with dialect })
  | .setOptions options => (.ok (), { s with options })

/-- Whether a call succeeds, without the value that it answers. -/
def answer (s : Session) (e : Edit) : TableResult Unit := (s.call e).1

/-- The session that a call leaves, whether it succeeds or not. -/
def after (s : Session) (e : Edit) : Session := (s.call e).2

/-- Grid, registry and selection fit each other. -/
structure Consistent (s : Session) : Prop where
  grid : s.grid.Reachable
  columns : s.columns.length = s.grid.cols
  selection : s.selection.Inside s.grid.rows s.grid.cols

variable {s t : Session} {row col pos : Nat} {g : Grid}

section Equations

theorem beginSelection_eq : s.beginSelection row col = do
    s.grid.check row col
    return { s with selection := s.selection.begin row col } := by
  rw [beginSelection, beginSelectionInPlace, changed_ask_bind]
  rfl

theorem insertRow_eq : s.insertRow pos = do
    let grid ← s.grid.insertRow pos
    return { s with grid } := changed_part

theorem insertCol_eq : s.insertCol pos = do
    let grid ← s.grid.insertCol pos
    let columns ← s.columns.insertDefault pos
    return { s with grid, columns } := by
  rw [insertCol, insertColInPlace, onGrid, changed_part_bind]
  exact bind_congr fun grid => changed_part

theorem deleteRow_eq : s.deleteRow row = do
    let grid ← s.grid.deleteRow row
    return { s with grid }.clampSelection := by
  rw [deleteRow, deleteRowInPlace, onGrid, changed_part_bind]
  rfl

theorem deleteCol_eq : s.deleteCol col = do
    let grid ← s.grid.deleteCol col
    let columns ← s.columns.remove col
    return { s with grid, columns }.clampSelection := by
  rw [deleteCol, deleteColInPlace, onGrid, changed_part_bind]
  refine bind_congr fun grid => ?_
  rw [onColumns, changed_part_bind]
  rfl

theorem mergeSelection_eq : s.mergeSelection = do
    let grid ← s.grid.merge s.selection.range
    return { s with grid } := changed_part

theorem splitSelection_eq : s.splitSelection = do
    let (grid, count) ← s.grid.split s.selection.range
    return ({ s with grid }, count) := answered_part

theorem setText_eq {text : String} : s.setText row col text = do
    let (grid, visible) ← s.grid.setText row col text
    return ({ s with grid }, visible) := answered_part

theorem applyStyle_eq {command : StyleCommand} : s.applyStyle command = do
    let (grid, count) ← s.grid.applyStyle s.selection.range s.selection.startRow
      s.selection.startCol command
    return ({ s with grid }, count) := answered_part

theorem setKind_eq {kind : ColumnKind} : s.setKind col kind = do
    let columns ← s.columns.setKind col kind
    return { s with columns } := changed_part

theorem setWidth_eq {width : Option String} : s.setWidth col width = do
    let columns ← s.columns.setWidth col width
    return { s with columns } := changed_part

end Equations

section Steps

theorem beginSelection_eq_ok :
    s.beginSelection row col = .ok t ↔
      s.grid.check row col = .ok () ∧ t = { s with selection := s.selection.begin row col } := by
  simp only [beginSelection_eq, check_bind_eq_ok, pure_eq_ok]

theorem insertRow_eq_ok :
    s.insertRow pos = .ok t ↔ ∃ g, s.grid.insertRow pos = .ok g ∧ t = { s with grid := g } := by
  simp only [insertRow_eq, bind_eq_ok, pure_eq_ok]

theorem insertCol_eq_ok : s.insertCol pos = .ok t ↔ ∃ g, s.grid.insertCol pos = .ok g ∧
    ∃ columns, s.columns.insertDefault pos = .ok columns ∧ t = { s with grid := g, columns } := by
  simp only [insertCol_eq, bind_eq_ok, pure_eq_ok]

theorem deleteRow_eq_ok :
    s.deleteRow row = .ok t ↔
      ∃ g, s.grid.deleteRow row = .ok g ∧ t = { s with grid := g }.clampSelection := by
  simp only [deleteRow_eq, bind_eq_ok, pure_eq_ok]

theorem deleteCol_eq_ok : s.deleteCol col = .ok t ↔ ∃ g, s.grid.deleteCol col = .ok g ∧
    ∃ columns, s.columns.remove col = .ok columns ∧
      t = { s with grid := g, columns }.clampSelection := by
  simp only [deleteCol_eq, bind_eq_ok, pure_eq_ok]

theorem mergeSelection_eq_ok :
    s.mergeSelection = .ok t ↔
      ∃ g, s.grid.merge s.selection.range = .ok g ∧ t = { s with grid := g } := by
  simp only [mergeSelection_eq, bind_eq_ok, pure_eq_ok]

theorem splitSelection_eq_ok {n : Nat} :
    s.splitSelection = .ok (t, n) ↔
      ∃ g, s.grid.split s.selection.range = .ok (g, n) ∧ t = { s with grid := g } := by
  simp only [splitSelection_eq, bind_eq_ok, pure_eq_ok, Prod.exists, Prod.mk.injEq]
  grind

theorem setText_eq_ok {text : String} {visible : Bool} :
    s.setText row col text = .ok (t, visible) ↔
      ∃ g, s.grid.setText row col text = .ok (g, visible) ∧ t = { s with grid := g } := by
  simp only [setText_eq, bind_eq_ok, pure_eq_ok, Prod.exists, Prod.mk.injEq]
  grind

theorem applyStyle_eq_ok {command : StyleCommand} {n : Nat} :
    s.applyStyle command = .ok (t, n) ↔
      ∃ g, s.grid.applyStyle s.selection.range s.selection.startRow s.selection.startCol command =
        .ok (g, n) ∧ t = { s with grid := g } := by
  simp only [applyStyle_eq, bind_eq_ok, pure_eq_ok, Prod.exists, Prod.mk.injEq]
  grind

theorem setKind_eq_ok {kind : ColumnKind} :
    s.setKind col kind = .ok t ↔
      ∃ columns, s.columns.setKind col kind = .ok columns ∧ t = { s with columns } := by
  simp only [setKind_eq, bind_eq_ok, pure_eq_ok]

theorem setWidth_eq_ok {width : Option String} :
    s.setWidth col width = .ok t ↔
      ∃ columns, s.columns.setWidth col width = .ok columns ∧ t = { s with columns } := by
  simp only [setWidth_eq, bind_eq_ok, pure_eq_ok]

end Steps

section Atomicity

theorem onGrid_atomic {α : Type} {op : Grid → TableResult α × Grid}
    (h : Atomic s.grid (op s.grid)) : Atomic s (perform s (onGrid op)) := .part rfl h

theorem onColumns_atomic {op : ColumnSpecs → TableResult Unit × ColumnSpecs}
    (h : Atomic s.columns (op s.columns)) : Atomic s (perform s (onColumns op)) := .part rfl h

theorem beginSelection_atomic : Atomic s (s.beginSelectionInPlace row col) :=
  .ask_bind fun _ _ => .of_ok

theorem deleteRow_atomic : Atomic s (s.deleteRowInPlace row) :=
  .part_bind rfl Grid.deleteLine_atomic fun _ _ _ => ⟨(), rfl⟩

end Atomicity

namespace Consistent

theorem rows_pos (h : Consistent s) : 0 < s.grid.rows := h.grid.layout.pos .row

theorem cols_pos (h : Consistent s) : 0 < s.grid.cols := h.grid.layout.pos .column

theorem checkRange (h : Consistent s) : s.grid.checkRange s.selection.range = .ok () :=
  (Grid.checkRange_eq_ok Selection.range_ordered).mpr h.selection.range_last_lt

/-- A grid of the same size takes the place of the old one. -/
theorem withGrid (h : Consistent s) (hg : g.Reachable)
    (hsize : g.rows = s.grid.rows ∧ g.cols = s.grid.cols) : Consistent { s with grid := g } where
  grid := hg
  columns := h.columns.trans hsize.2.symm
  selection := h.selection.mono hsize.1.ge hsize.2.ge

theorem withRun (h : Consistent s) {e : Grid.Edit} (he : e.run s.grid = .ok g)
    (hsize : g.rows = s.grid.rows ∧ g.cols = s.grid.cols) : Consistent { s with grid := g } :=
  h.withGrid (h.grid.of_run_same_size he hsize) hsize

theorem withSelection (h : Consistent s) {selection : Selection}
    (hin : selection.Inside s.grid.rows s.grid.cols) :
    Consistent { s with selection } := ⟨h.grid, h.columns, hin⟩

theorem withColumns (h : Consistent s) {columns : ColumnSpecs}
    (hlength : columns.length = s.columns.length) : Consistent { s with columns } :=
  ⟨h.grid, hlength.trans h.columns, h.selection⟩

theorem beginSelection (h : Consistent s) (hs : s.beginSelection row col = .ok t) :
    Consistent t := by
  obtain ⟨hc, rfl⟩ := beginSelection_eq_ok.mp hs
  exact h.withSelection (Selection.begin_inside (Grid.check_eq_ok_iff.mp hc))

theorem extendSelection (h : Consistent s) (row col : Nat) :
    Consistent (s.extendSelection row col) := by
  have hr := h.rows_pos
  have hc := h.cols_pos
  exact h.withSelection (h.selection.extend (by omega))

theorem addRow (h : Consistent s) (hf : s.addRow.grid.Fits) : Consistent s.addRow := by
  have hgrid : s.addRow.grid = s.grid.inserted .row s.grid.rows := Grid.addLine_eq
  refine ⟨h.grid.of_run (e := .addRow) rfl hf, ?_, ?_⟩
  · rw [hgrid]
    exact h.columns
  · rw [hgrid]
    exact h.selection.mono (Nat.le_succ _) le_rfl

theorem addCol (h : Consistent s) (hf : s.addCol.grid.Fits) : Consistent s.addCol := by
  have hgrid : s.addCol.grid = s.grid.inserted .column s.grid.cols := Grid.addLine_eq
  refine ⟨h.grid.of_run (e := .addCol) rfl hf, ?_, ?_⟩
  · rw [hgrid]
    exact List.length_append.trans (congrArg (· + 1) h.columns)
  · rw [hgrid]
    exact h.selection.mono le_rfl (Nat.le_succ _)

theorem insertRow (h : Consistent s) (hs : s.insertRow pos = .ok t) (hf : t.grid.Fits) :
    Consistent t := by
  obtain ⟨g, hg, rfl⟩ := insertRow_eq_ok.mp hs
  obtain ⟨-, hins⟩ := Grid.insertLine_eq_ok_iff.mp hg
  refine ⟨h.grid.of_run (e := .insertRow pos) hg hf, ?_, ?_⟩
  · rw [hins]
    exact h.columns
  · rw [hins]
    exact h.selection.mono (Nat.le_succ _) le_rfl

theorem insertCol (h : Consistent s) (hs : s.insertCol pos = .ok t) (hf : t.grid.Fits) :
    Consistent t := by
  obtain ⟨g, hg, columns, hc, rfl⟩ := insertCol_eq_ok.mp hs
  obtain ⟨hpos, hins⟩ := Grid.insertLine_eq_ok_iff.mp hg
  have hcolumns : pos ≤ s.columns.length := h.columns ▸ hpos
  rw [ColumnSpecs.insertDefault_of_le hcolumns] at hc
  refine ⟨h.grid.of_run (e := .insertCol pos) hg hf, ?_, ?_⟩
  · rw [hins, ← Except.ok.inj hc, ColumnSpecs.length_inserted hcolumns]
    exact congrArg (· + 1) h.columns
  · rw [hins]
    exact h.selection.mono le_rfl (Nat.le_succ _)

theorem deleteRow (h : Consistent s) (hs : s.deleteRow row = .ok t) (hf : t.grid.Fits) :
    Consistent t := by
  obtain ⟨g, hg, rfl⟩ := deleteRow_eq_ok.mp hs
  obtain ⟨-, hdel⟩ := (Grid.deleteLine_eq_ok_iff (h.grid.layout.pos .column)).mp hg
  have hgrid := h.grid.of_run (e := .deleteRow row) hg hf
  refine ⟨hgrid, ?_, Selection.clamp_inside (hgrid.layout.pos .row) (hgrid.layout.pos .column)⟩
  show s.columns.length = g.cols
  rw [hdel]
  exact h.columns

theorem deleteCol (h : Consistent s) (hs : s.deleteCol col = .ok t) (hf : t.grid.Fits) :
    Consistent t := by
  obtain ⟨g, hg, columns, hc, rfl⟩ := deleteCol_eq_ok.mp hs
  obtain ⟨⟨hcol, -⟩, hdel⟩ := (Grid.deleteLine_eq_ok_iff (h.grid.layout.pos .row)).mp hg
  have hcolumns : col < s.columns.length := h.columns ▸ hcol
  rw [ColumnSpecs.remove_of_lt hcolumns] at hc
  have hgrid := h.grid.of_run (e := .deleteCol col) hg hf
  refine ⟨hgrid, ?_, Selection.clamp_inside (hgrid.layout.pos .row) (hgrid.layout.pos .column)⟩
  show columns.length = g.cols
  rw [hdel, ← Except.ok.inj hc, List.length_eraseIdx_of_lt hcolumns, h.columns]
  rfl

theorem mergeSelection (h : Consistent s) (hs : s.mergeSelection = .ok t) : Consistent t := by
  obtain ⟨g, hg, rfl⟩ := mergeSelection_eq_ok.mp hs
  exact h.withRun (e := .merge _ _ _ _) hg (Grid.merge_size Selection.range_ordered hg)

theorem splitSelection {n : Nat} (h : Consistent s) (hs : s.splitSelection = .ok (t, n)) :
    Consistent t := by
  obtain ⟨g, hg, rfl⟩ := splitSelection_eq_ok.mp hs
  exact h.withRun (e := .split _ _ _ _) (changed_silent_eq_ok_iff.mpr ⟨n, hg⟩)
    (Grid.split_size Selection.range_ordered hg)

theorem setText {text : String} {visible : Bool} (h : Consistent s)
    (hs : s.setText row col text = .ok (t, visible)) : Consistent t := by
  obtain ⟨g, hg, rfl⟩ := setText_eq_ok.mp hs
  exact h.withRun (e := .setText row col text) (changed_silent_eq_ok_iff.mpr ⟨visible, hg⟩)
    (Grid.updateCell_size hg)

theorem applyStyle {command : StyleCommand} {n : Nat} (h : Consistent s)
    (hs : s.applyStyle command = .ok (t, n)) : Consistent t := by
  obtain ⟨g, hg, rfl⟩ := applyStyle_eq_ok.mp hs
  obtain ⟨u, hu⟩ := Grid.applyStyle_eq_ok hg
  exact h.withRun (e := .applyStyle _ _ _ _ _ _ command) (changed_silent_eq_ok_iff.mpr ⟨n, hg⟩)
    (Grid.updateEach_size hu)

theorem setKind {kind : ColumnKind} (h : Consistent s) (hs : s.setKind col kind = .ok t) :
    Consistent t := by
  obtain ⟨columns, hc, rfl⟩ := setKind_eq_ok.mp hs
  rw [ColumnSpecs.setKind_eq_ok hc]
  exact h.withColumns (List.length_modify ..)

theorem setWidth {width : Option String} (h : Consistent s) (hs : s.setWidth col width = .ok t) :
    Consistent t := by
  obtain ⟨columns, hc, rfl⟩ := setWidth_eq_ok.mp hs
  obtain ⟨stored, rfl, -⟩ := ColumnSpecs.setWidth_eq_ok hc
  exact h.withColumns (List.length_modify ..)

/-- A call that succeeds keeps grid, registry and selection in step. -/
theorem of_changed (h : Consistent s) {e : Edit} (he : changed (s.call e) = .ok t)
    (hf : t.grid.Fits) : Consistent t := by
  cases e with
  | beginSelection row col => exact h.beginSelection he
  | extendSelection row col => exact Except.ok.inj he ▸ h.extendSelection row col
  | endSelection => exact Except.ok.inj he ▸ h.withSelection h.selection
  | selectAll =>
    exact Except.ok.inj he ▸ h.withSelection (Selection.all_inside h.rows_pos h.cols_pos)
  | addRow =>
    obtain rfl := Except.ok.inj he
    exact h.addRow hf
  | addCol =>
    obtain rfl := Except.ok.inj he
    exact h.addCol hf
  | insertRow pos => exact h.insertRow he hf
  | insertCol pos => exact h.insertCol he hf
  | deleteRow row => exact h.deleteRow he hf
  | deleteCol col => exact h.deleteCol he hf
  | mergeSelection => exact h.mergeSelection he
  | splitSelection =>
    obtain ⟨n, hs⟩ := changed_silent_eq_ok_iff.mp he
    exact h.splitSelection hs
  | setText row col text =>
    obtain ⟨visible, hs⟩ := changed_silent_eq_ok_iff.mp he
    exact h.setText hs
  | applyStyle command =>
    obtain ⟨n, hs⟩ := changed_silent_eq_ok_iff.mp he
    exact h.applyStyle hs
  | setKind col kind => exact h.setKind he
  | setWidth col width => exact h.setWidth he
  | setDialect dialect | setOptions options =>
    exact Except.ok.inj he ▸ ⟨h.grid, h.columns, h.selection⟩

/-- The registry has the place for a new entry whenever the grid has it. -/
theorem insertCol_atomic (h : Consistent s) : Atomic s (s.insertColInPlace pos) := by
  refine .part_bind rfl Grid.insertLine_atomic fun _ g hg => ⟨(), ?_⟩
  have hpos := (Grid.insertLine_eq_ok_iff.mp (changed_eq_ok_iff.mpr hg)).1
  have hcolumns : pos ≤ s.columns.length := h.columns ▸ hpos
  have hins := changed_eq_ok_iff.mp (ColumnSpecs.insertDefault_of_le hcolumns)
  exact congrArg Prod.fst hins

/-- The registry has the entry of every column of the grid. -/
theorem deleteCol_atomic (h : Consistent s) : Atomic s (s.deleteColInPlace col) := by
  refine .part_bind rfl Grid.deleteLine_atomic fun _ g hg => ⟨(), ?_⟩
  have hline := (Grid.deleteLine_eq_ok_iff (h.grid.layout.pos .row)).mp (changed_eq_ok_iff.mpr hg)
  have hcolumns : col < s.columns.length := h.columns ▸ hline.1.1
  have hdel := changed_eq_ok_iff.mp (ColumnSpecs.remove_of_lt hcolumns)
  simp only [onColumns, perform_bind, perform_part, hdel, perform_modify]

/-- A call that is refused changes nothing. -/
theorem atomic (h : Consistent s) (e : Edit) : Atomic s (s.call e) := by
  cases e with
  | beginSelection row col => exact beginSelection_atomic
  | extendSelection row col | endSelection | selectAll | addRow | addCol | setDialect dialect
    | setOptions options => exact .of_ok
  | insertRow pos => exact onGrid_atomic Grid.insertLine_atomic
  | insertCol pos => exact h.insertCol_atomic
  | deleteRow row => exact deleteRow_atomic
  | deleteCol col => exact h.deleteCol_atomic
  | mergeSelection => exact onGrid_atomic Grid.merge_atomic
  | splitSelection => exact (onGrid_atomic Grid.split_atomic).silent
  | setText row col text => exact (onGrid_atomic (Grid.updateCell_atomic _)).silent
  | applyStyle command => exact (onGrid_atomic (Grid.applyStyle_atomic command)).silent
  | setKind col kind => exact onColumns_atomic (ColumnSpecs.setKind_atomic kind)
  | setWidth col width => exact onColumns_atomic (ColumnSpecs.setWidth_atomic width)

/-- A call keeps grid, registry and selection in step, whether it succeeds or not. -/
theorem after (h : Consistent s) (e : Edit) (hf : (s.after e).grid.Fits) :
    Consistent (s.after e) :=
  (h.atomic e).cases (P := fun t => t.grid.Fits → Consistent t) (fun _ => h)
    (fun _ he => h.of_changed he) hf

end Consistent
end Session
end LatexTable
