import LatexTable.Packages
import LatexTable.Proofs.Guarded.Check
import LatexTable.Proofs.Guarded.Latex
import LatexTable.Proofs.Guarded.Lines
import LatexTable.Proofs.Session.Refusal
/-!
A session with every access guarded. Grid, registry and selection fit each other along every run,
so that no call and no question meets a fault.
-/
namespace LatexTable

namespace Guarded

/-- An index of a list. -/
def indexOf (i size : Nat) : Guarded Unit := if i < size then .ok () else .error (.outside i size)

theorem indexOf_eq {i size : Nat} (h : i < size) : indexOf i size = .ok () := if_pos h

section Registry

def insertDefault (specs : ColumnSpecs) (pos : Nat) :
    Guarded (TableResult Unit × ColumnSpecs) := do
  if specs.length < pos then return (.error (specs.outOfBounds pos), specs)
  else return (.ok (), ← splice specs pos pos [.default])

def remove (specs : ColumnSpecs) (col : Nat) : Guarded (TableResult Unit × ColumnSpecs) :=
  proceedIn specs (specs.check col) fun _ => do
    indexOf col specs.length
    return (.ok (), specs.eraseIdx col)

def modify (specs : ColumnSpecs) (col : Nat) (f : ColumnSpec → ColumnSpec) :
    Guarded (TableResult Unit × ColumnSpecs) := do
  indexOf col specs.length
  return (.ok (), specs.modify col f)

def setKind (specs : ColumnSpecs) (col : Nat) (kind : ColumnKind) :
    Guarded (TableResult Unit × ColumnSpecs) :=
  proceedIn specs (specs.check col) fun _ => modify specs col fun s => { s with kind }

def setWidth (specs : ColumnSpecs) (col : Nat) (width : Option String) :
    Guarded (TableResult Unit × ColumnSpecs) :=
  proceedIn specs (specs.check col) fun _ =>
    match width.bind Text.nonBlank? with
    | none => modify specs col fun s => { s with width := none }
    | some w =>
      if (WidthKind.ofWidth? w).isNone then return (.error (.invalidDimension w), specs)
      else modify specs col fun s => { s with width := some w }

/-- The mapping goes over the columns without an index and takes no difference: no step of it can
be a fault. -/
def mapFor (dialect : Dialect) (specs : ColumnSpecs) : Guarded (List MappedColumn) :=
  match dialect with
  | .modern => specs.mapM fun spec => return spec.mapModern
  | .plain | .rules => specs.mapM fun spec => return spec.mapTabular specs.ratioTotal

variable {specs : ColumnSpecs} {col pos : Nat}

theorem insertDefault_eq : insertDefault specs pos = .ok (specs.insertDefaultInPlace pos) := by
  rw [insertDefault, ColumnSpecs.insertDefaultInPlace_eq]
  split
  · rfl
  · rename_i hle
    rw [splice_eq le_rfl (Nat.le_of_not_lt hle), List.append_assoc]
    rfl

theorem remove_eq : remove specs col = .ok (specs.removeInPlace col) := by
  refine proceedIn_eq specs (·.check col) fun _ hcheck => ?_
  rw [indexOf_eq (ColumnSpecs.check_eq_ok_iff.mp hcheck)]
  rfl

theorem modify_eq (hcheck : specs.check col = .ok ()) (f : ColumnSpec → ColumnSpec) :
    modify specs col f = .ok (.ok (), specs.modify col f) := by
  rw [modify, indexOf_eq (ColumnSpecs.check_eq_ok_iff.mp hcheck)]
  rfl

theorem setKind_eq (kind : ColumnKind) :
    setKind specs col kind = .ok (specs.setKindInPlace col kind) :=
  proceedIn_eq specs (·.check col) fun _ hcheck => modify_eq hcheck _

theorem setWidth_eq (width : Option String) :
    setWidth specs col width = .ok (specs.setWidthInPlace col width) := by
  refine proceedIn_eq specs (·.check col) fun _ hcheck => ?_
  cases width.bind Text.nonBlank? with
  | none => exact modify_eq hcheck _
  | some w =>
    dsimp only
    split
    · rfl
    · exact modify_eq hcheck _

theorem mapFor_eq (dialect : Dialect) : mapFor dialect specs = .ok (specs.mapFor dialect) := by
  cases dialect <;> exact mapM_eq fun _ _ => rfl

end Registry

section Packages

/-- Longer tables and regions of several rows each need a package. -/
def spanningRequirements (g : Grid) (o : TableOptions) : Guarded (List Requirement) := do
  let tall ← (← regions g).anyM fun r => do return 1 < (← lineCount r .row)
  return (if o.longTable then [⟨"longtable", none⟩] else []) ++
    if tall then [⟨"multirow", none⟩] else []

def dialectRequirements (g : Grid) (dialect : Dialect) (o : TableOptions) :
    Guarded (List Requirement) := do
  match dialect with
  | .modern => return [⟨"tabularray", none⟩]
  | .plain => spanningRequirements g o
  | .rules => return ⟨"booktabs", none⟩ :: (← spanningRequirements g o)

def requiredPackages (g : Grid) (dialect : Dialect) (o : TableOptions) :
    Guarded (List Package) := do
  let asked ← dialectRequirements g dialect o
  let lines ← rowList g
  return (asked ++ lines.flatten.flatMap (cellRequirements dialect)).foldl Requirement.addTo []

end Packages

section Snapshot

def styleSpec? (c : Cell) (row col : Nat) : Option StyleSpec :=
  if c.hidden || c.style.isUnset then none else some ⟨row, col, c.style⟩

def ofSession (s : Session) : Guarded TableDocument := do
  let lines ← rowList s.grid
  let merges ← (← regions s.grid).mapM fun r => do
    return (⟨r.minRow, r.minCol, ← lineCount r .row, ← lineCount r .column⟩ : MergeSpec)
  let found ← lines.zipIdx.mapM fun (line, row) =>
    line.zipIdx.mapM fun (c, col) => return styleSpec? c row col
  return {
    dialect := s.dialect
    rows := lines.map (List.map Cell.text)
    options := s.options
    columns := s.columns
    merges
    styles := found.flatten.filterMap id }

end Snapshot

section Calls

def extendSelection (s : Session) (row col : Nat) : Guarded Session := do
  let lastRow ← sub s.grid.rows 1
  let lastCol ← sub s.grid.cols 1
  return { s with selection := s.selection.extend (min row lastRow) (min col lastCol) }

/-- An operation on the grid of a session. -/
def onGrid {α : Type} (s : Session) (left : Guarded (TableResult α × Grid)) :
    Guarded (TableResult α × Session) := do
  let (answer, grid) ← left
  return (answer, { s with grid })

/-- An operation on the registry of a session. -/
def onColumns (s : Session) (left : Guarded (TableResult Unit × ColumnSpecs)) :
    Guarded (TableResult Unit × Session) := do
  let (answer, columns) ← left
  return (answer, { s with columns })

def insertColInPlace (s : Session) (pos : Nat) : Guarded (TableResult Unit × Session) :=
  followedBy (onGrid s (insertCol s.grid pos)) fun s =>
    onColumns s (insertDefault s.columns pos)

def deleteRowInPlace (s : Session) (row : Nat) : Guarded (TableResult Unit × Session) :=
  followedBy (onGrid s (deleteRow s.grid row)) fun s => return (.ok (), s.clampSelection)

def deleteColInPlace (s : Session) (col : Nat) : Guarded (TableResult Unit × Session) :=
  followedBy (onGrid s (deleteCol s.grid col)) fun s =>
    followedBy (onColumns s (remove s.columns col)) fun s => return (.ok (), s.clampSelection)

/-- A call of a session: its answer without the value, and the session that it leaves. -/
def call (s : Session) : Session.Edit → Guarded (TableResult Unit × Session)
  | .beginSelection row col => do
    proceedIn s (← cell s.grid row col) fun _ =>
      return (.ok (), { s with selection := s.selection.begin row col })
  | .extendSelection row col => do return (.ok (), ← extendSelection s row col)
  | .endSelection => return (.ok (), s.endSelection)
  | .selectAll => return (.ok (), s.selectAll)
  | .addRow => do return (.ok (), { s with grid := ← addRow s.grid })
  | .addCol => do
    return (.ok (), { s with grid := ← addCol s.grid, columns := s.columns.pushDefault })
  | .insertRow pos => onGrid s (insertRow s.grid pos)
  | .insertCol pos => insertColInPlace s pos
  | .deleteRow row => deleteRowInPlace s row
  | .deleteCol col => deleteColInPlace s col
  | .mergeSelection => onGrid s (merge s.grid s.selection.range)
  | .splitSelection => do
    return InPlace.silent (← onGrid s (split s.grid s.selection.range))
  | .setText row col text => do
    let update (content : CellContent) : CellContent := { content with text }
    return InPlace.silent (← onGrid s (updateCell s.grid row col update))
  | .applyStyle command => do
    let (focusRow, focusCol) := s.selection.focus
    let left := applyStyle s.grid s.selection.range focusRow focusCol command
    return InPlace.silent (← onGrid s left)
  | .setKind col kind => onColumns s (setKind s.columns col kind)
  | .setWidth col width => onColumns s (setWidth s.columns col width)
  | .setDialect dialect => return (.ok (), { s with dialect })
  | .setOptions options => return (.ok (), { s with options })

section Parts

variable {s : Session}

theorem onGrid_eq {α : Type} {left : Guarded (TableResult α × Grid)}
    (op : Grid → TableResult α × Grid) (h : left = .ok (op s.grid)) :
    onGrid s left = .ok (InPlace.perform s (Session.onGrid op)) := by
  subst h
  rfl

theorem onColumns_eq {left : Guarded (TableResult Unit × ColumnSpecs)}
    (op : ColumnSpecs → TableResult Unit × ColumnSpecs) (h : left = .ok (op s.columns)) :
    onColumns s left = .ok (InPlace.perform s (Session.onColumns op)) := by
  subst h
  rfl

end Parts

end Calls

end Guarded

namespace Session

variable {s t : Session}

/-- Every call and every question about a session gives the value that it gives when accesses are
not guarded, so that none of them has met a fault. The room that a new column needs can be counted
when the cells of the grid with that column can. -/
structure Faultless (s : Session) : Prop where
  call : ∀ e, Guarded.call s e = .ok (s.answer e, s.after e)
  roomForCol : (s.after .addCol).grid.Fits →
    Guarded.roomForCol s.grid = .ok (s.after .addCol).grid.cells.size
  rowHasContent : ∀ row, Guarded.rowHasContent s.grid row = .ok (s.grid.rowHasContent row)
  colHasContent : ∀ col, Guarded.colHasContent s.grid col = .ok (s.grid.colHasContent col)
  latex : ∀ dialect columns o,
    Guarded.latex s.grid dialect columns o = .ok (s.grid.latex dialect columns o)
  mappings : ∀ dialect, Guarded.mapFor dialect s.columns = .ok (s.columns.mapFor dialect)
  check : ∀ dialect o,
    Guarded.checkTable s.grid s.columns dialect o = .ok (checkTable s.grid s.columns dialect o)
  packages : ∀ dialect o,
    Guarded.requiredPackages s.grid dialect o = .ok (requiredPackages s.grid dialect o)
  boundary : ∀ row style,
    Guarded.boundaryLines s.grid row style = .ok (s.grid.boundaryLines row style)
  snapshot : Guarded.ofSession s = .ok (.ofSession s)

namespace Consistent

theorem lineCount_eq (h : Consistent s) {r : CellRange} (hr : r ∈ s.grid.regions) (axis : Axis) :
    Guarded.lineCount r axis = .ok (r.lineCount axis) := by
  have hl := h.grid.layout
  exact hl.lineCount_guarded h.grid.fits ((hl.mem_regions (hl.indexed h.grid.fits)).mp hr) axis

theorem dialectRequirements_eq (h : Consistent s) (dialect : Dialect) (o : TableOptions) :
    Guarded.dialectRequirements s.grid dialect o = .ok (dialectRequirements s.grid dialect o) := by
  have htall : (s.grid.regions.anyM fun r => do return 1 < (← Guarded.lineCount r .row)) =
      .ok (s.grid.regions.any fun r => 1 < r.rowCount) := by
    apply Guarded.anyM_eq
    intro r hr
    rw [h.lineCount_eq hr]
    rfl
  have hspanning : Guarded.spanningRequirements s.grid o =
      .ok (dialectRequirements s.grid .plain o) := by
    rw [Guarded.spanningRequirements, (h.grid.layout.stored h.grid.fits).regions_eq,
      Guarded.ok_bind, htall]
    rfl
  cases dialect with
  | modern => rfl
  | plain => exact hspanning
  | rules =>
    rw [Guarded.dialectRequirements, hspanning]
    rfl

theorem requiredPackages_eq (h : Consistent s) (dialect : Dialect) (o : TableOptions) :
    Guarded.requiredPackages s.grid dialect o = .ok (requiredPackages s.grid dialect o) := by
  rw [Guarded.requiredPackages, h.dialectRequirements_eq, Guarded.ok_bind,
    (h.grid.layout.stored h.grid.fits).rowList_eq h.cols_pos]
  rfl

theorem ofSession_eq (h : Consistent s) : Guarded.ofSession s = .ok (.ofSession s) := by
  have hg := h.grid.layout.stored h.grid.fits
  have hmerges : (s.grid.regions.mapM fun r => do
        return (⟨r.minRow, r.minCol, ← Guarded.lineCount r .row, ← Guarded.lineCount r .column⟩ :
          MergeSpec)) =
      .ok (s.grid.regions.map fun r => ⟨r.minRow, r.minCol, r.rowCount, r.colCount⟩) := by
    apply Guarded.mapM_eq
    intro r hr
    rw [h.lineCount_eq hr, Guarded.ok_bind, h.lineCount_eq hr]
    rfl
  have hstyles := Grid.mapM_rowList (g := s.grid) (v := Guarded.styleSpec?)
    (t := fun c row col => .ok (Guarded.styleSpec? c row col)) fun _ _ _ _ => rfl
  rw [Guarded.ofSession, hg.rowList_eq h.cols_pos, Guarded.ok_bind, hg.regions_eq, Guarded.ok_bind,
    hmerges, Guarded.ok_bind]
  simp only [Guarded.pure_eq, hstyles, Guarded.ok_bind]
  rw [Grid.flatten_rows, List.filterMap_map]
  rfl

theorem insertColInPlace_eq (h : Consistent s) (hmax : s.grid.cols + 1 ≤ maxIndex) (pos : Nat) :
    Guarded.insertColInPlace s pos = .ok (s.insertColInPlace pos) := by
  have hgrid := Guarded.onGrid_eq (·.insertLineInPlace .column pos)
    (h.grid.layout.insertCol_guarded h.grid.fits hmax)
  rw [Guarded.insertColInPlace, Session.insertColInPlace]
  exact Guarded.followedBy_eq hgrid fun _ =>
    Guarded.onColumns_eq (·.insertDefaultInPlace pos) Guarded.insertDefault_eq

theorem deleteRowInPlace_eq (h : Consistent s) (row : Nat) :
    Guarded.deleteRowInPlace s row = .ok (s.deleteRowInPlace row) := by
  have hgrid := Guarded.onGrid_eq (·.deleteLineInPlace .row row)
    (h.grid.layout.deleteRow_guarded h.grid.fits)
  rw [Guarded.deleteRowInPlace, Session.deleteRowInPlace]
  exact Guarded.followedBy_eq hgrid fun _ => rfl

theorem deleteColInPlace_eq (h : Consistent s) (col : Nat) :
    Guarded.deleteColInPlace s col = .ok (s.deleteColInPlace col) := by
  have hgrid := Guarded.onGrid_eq (·.deleteLineInPlace .column col)
    (h.grid.layout.deleteCol_guarded h.grid.fits)
  rw [Guarded.deleteColInPlace, Session.deleteColInPlace]
  exact Guarded.followedBy_eq hgrid fun _ =>
    Guarded.followedBy_eq (Guarded.onColumns_eq (·.removeInPlace col) Guarded.remove_eq)
      fun _ => rfl

/-- One call meets no fault, whether it succeeds or not. -/
theorem call_eq (h : Consistent s) (hrows : s.grid.rows + 1 ≤ maxIndex)
    (hcols : s.grid.cols + 1 ≤ maxIndex) (e : Edit) :
    Guarded.call s e = .ok (s.answer e, s.after e) := by
  have hl := h.grid.layout
  have hf := h.grid.fits
  have hg := hl.stored hf
  have hord : s.selection.range.Ordered := Selection.range_ordered
  cases e with
  | beginSelection row col =>
    rw [Guarded.call, hg.cell_eq, Guarded.ok_bind, answer, Session.after, Session.call,
      beginSelectionInPlace, InPlace.perform_ask_bind, Grid.cell]
    cases s.grid.check row col <;> rfl
  | extendSelection row col =>
    rw [Guarded.call, Guarded.extendSelection, Guarded.sub_eq h.rows_pos, Guarded.ok_bind,
      Guarded.sub_eq h.cols_pos]
    rfl
  | endSelection | selectAll | setDialect dialect | setOptions options => rfl
  | addRow =>
    rw [Guarded.call, hl.addRow_guarded hf hrows]
    rfl
  | addCol =>
    rw [Guarded.call, hl.addCol_guarded hf hcols]
    rfl
  | insertRow pos =>
    exact Guarded.onGrid_eq (·.insertLineInPlace .row pos) (hl.insertRow_guarded hf hrows)
  | insertCol pos => exact h.insertColInPlace_eq hcols pos
  | deleteRow row => exact h.deleteRowInPlace_eq row
  | deleteCol col => exact h.deleteColInPlace_eq col
  | mergeSelection => exact Guarded.onGrid_eq (·.mergeInPlace _) (hl.merge_guarded hf hord)
  | splitSelection =>
    rw [Guarded.call, Guarded.onGrid_eq (·.splitInPlace _) (hl.split_guarded hf)]
    rfl
  | setText row col text =>
    rw [Guarded.call, Guarded.onGrid_eq (·.updateCellInPlace row col _) (hg.updateCell_eq _)]
    rfl
  | applyStyle command =>
    rw [Guarded.call]
    dsimp only [Selection.focus]
    rw [Guarded.onGrid_eq (·.applyStyleInPlace _ _ _ command) (hg.applyStyle_eq hord command)]
    rfl
  | setKind col kind =>
    exact Guarded.onColumns_eq (·.setKindInPlace col kind) (Guarded.setKind_eq kind)
  | setWidth col width =>
    exact Guarded.onColumns_eq (·.setWidthInPlace col width) (Guarded.setWidth_eq width)

end Consistent

/-- Along every run no call and no question about the session meets a fault, as long as a row and
a column more have indices and no text has braces beyond counting. -/
theorem run_faultless (hs : Start s) (hrun : Run s t) (hrows : t.grid.rows + 1 ≤ maxIndex)
    (hcols : t.grid.cols + 1 ≤ maxIndex) (hbraces : t.grid.FewBraces) : Faultless t := by
  have h := hs.consistent.run hrun
  have hl := h.grid.layout
  have hf := h.grid.fits
  have hg := hl.stored hf
  have hnext : ∀ axis, t.grid.lineCount axis + 1 ≤ maxIndex := by
    rintro (_ | _)
    · exact hrows
    · exact hcols
  exact {
    call := h.call_eq hrows hcols
    roomForCol := Grid.roomForCol_guarded hcols
    rowHasContent := fun _ => hg.rowHasContent_eq
    colHasContent := fun _ => hg.colHasContent_eq
    latex := fun dialect _ _ => hl.latex_guarded hf dialect
    mappings := fun dialect => Guarded.mapFor_eq dialect
    check := hl.checkTable_guarded hf hnext hbraces h.columns
    packages := h.requiredPackages_eq
    boundary := fun _ _ => hl.boundaryLines_guarded hf
    snapshot := h.ofSession_eq }

theorem run_faultless_heir :
    Faultless ((((((blank 3 3).after (.beginSelection 0 0)).after (.extendSelection 9 1)).after
      .mergeSelection).after (.setText 0 0 "\x7ba\x7d")).after (.deleteRow 0)) := by
  refine run_faultless (.blank 3 3 ?_)
    (.edit _ (.edit _ (.edit _ (.edit _ (.edit _ .nil ?_) ?_) ?_) ?_) ?_) ?_ ?_ ?_ <;> decide

-- in a grid without rows there is no last row to go back to
example : Guarded.extendSelection { grid := ⟨0, 0, #[]⟩, columns := [] } 0 0 =
    .error (.negative 0 1) := rfl

end Session
end LatexTable
