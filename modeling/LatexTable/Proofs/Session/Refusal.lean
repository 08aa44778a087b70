import LatexTable.Proofs.Session.Reachable
/-!
When a session refuses a call. A call is refused for its arguments alone, with the error of the
first check that it does not pass, and a refused call leaves the whole session as it was.
-/
namespace LatexTable
open Result InPlace

namespace Grid

variable {g : Grid} {axis : Axis} {pos row col : Nat} {err : TableError}

theorem checkLine_eq_error_iff (hpos : 0 < g.lineCount axis.other) :
    g.checkLine axis pos = .error err ↔
      g.lineCount axis ≤ pos ∧ err = g.outsideLine axis pos := by
  cases axis <;>
    simp_all [checkLine, outsideLine, Axis.place, check_eq_error_iff, lineCount, Axis.other]

theorem insertLine_eq_error_iff :
    g.insertLine axis pos = .error err ↔
      g.lineCount axis < pos ∧ err = g.outsideLine axis pos := by
  rw [insertLine_eq]
  split
  next hlt => simpa [hlt] using eq_comm
  next hle => simp [hle]

theorem deleteLine_eq_error_iff (hpos : 0 < g.lineCount axis.other) :
    g.deleteLine axis pos = .error err ↔
      (g.lineCount axis ≤ pos ∧ err = g.outsideLine axis pos) ∨
        (pos < g.lineCount axis ∧ g.lineCount axis = 1) ∧ err = .minimumSize axis := by
  simp only [deleteLine_eq, check_bind_eq_error, checkLine_eq_error_iff hpos,
    checkLine_eq_ok_iff hpos]
  by_cases hone : g.lineCount axis = 1
  · simpa [hone] using or_congr_right (and_congr_right fun _ => eq_comm)
  · simp [hone, pure_ne_error]

theorem lineHasContent_eq_error_iff (hpos : 0 < g.lineCount axis.other) :
    g.lineHasContent axis pos = .error err ↔
      g.lineCount axis ≤ pos ∧ err = g.outsideLine axis pos := by
  rw [lineHasContent, bind_pure_eq_error, checkLine_eq_error_iff hpos]

theorem updateCell_eq_error_iff {u : CellContent → CellContent} :
    g.updateCell row col u = .error err ↔
      ¬(row < g.rows ∧ col < g.cols) ∧ err = g.outOfBounds row col := by
  simp only [updateCell_eq, check_bind_eq_error, check_eq_error_iff]
  split <;> simp [pure_ne_error]

end Grid

namespace Session

/-- The calls that are refused, and the error that each of them gets. -/
def Refuses (s : Session) : Edit → TableError → Prop
  | .beginSelection row col, err | .setText row col _, err =>
    ¬(row < s.grid.rows ∧ col < s.grid.cols) ∧ err = s.grid.outOfBounds row col
  | .insertRow pos, err => s.grid.rows < pos ∧ err = s.grid.outOfBounds pos 0
  | .insertCol pos, err => s.grid.cols < pos ∧ err = s.grid.outOfBounds 0 pos
  | .deleteRow row, err =>
    (s.grid.rows ≤ row ∧ err = s.grid.outOfBounds row 0) ∨
      (row < s.grid.rows ∧ s.grid.rows = 1) ∧ err = .minimumSize .row
  | .deleteCol col, err =>
    (s.grid.cols ≤ col ∧ err = s.grid.outOfBounds 0 col) ∨
      (col < s.grid.cols ∧ s.grid.cols = 1) ∧ err = .minimumSize .column
  | .setKind col _, err => s.grid.cols ≤ col ∧ err = .outOfBounds 0 col 0 s.grid.cols
  | .setWidth col width, err =>
    (s.grid.cols ≤ col ∧ err = .outOfBounds 0 col 0 s.grid.cols) ∨
      col < s.grid.cols ∧ ∃ w, width = some w ∧ Text.trim w ≠ "" ∧
        WidthKind.ofWidth? w = none ∧ err = .invalidDimension (Text.trim w)
  | .extendSelection _ _, _ | .endSelection, _ | .selectAll, _ | .addRow, _ | .addCol, _
  | .mergeSelection, _ | .splitSelection, _ | .applyStyle _, _ | .setDialect _, _
  | .setOptions _, _ => False

variable {s t : Session} {pos col : Nat} {err : TableError}

namespace Consistent

theorem insertCol_eq_error_iff (h : Consistent s) :
    s.insertCol pos = .error err ↔ s.grid.insertCol pos = .error err := by
  rw [insertCol_eq, bind_eq_error]
  refine or_iff_left ?_
  rintro ⟨g, hg, hcolumns⟩
  have hpos : pos ≤ s.columns.length := h.columns ▸ (Grid.insertLine_eq_ok_iff.mp hg).1
  rw [ColumnSpecs.insertDefault_of_le hpos] at hcolumns
  cases hcolumns

theorem deleteCol_eq_error_iff (h : Consistent s) :
    s.deleteCol col = .error err ↔ s.grid.deleteCol col = .error err := by
  rw [deleteCol_eq, bind_eq_error]
  refine or_iff_left ?_
  rintro ⟨g, hg, hcolumns⟩
  have hcol := (Grid.deleteLine_eq_ok_iff (h.grid.layout.pos .row)).mp hg
  have hlt : col < s.columns.length := h.columns ▸ hcol.1.1
  rw [ColumnSpecs.remove_of_lt hlt] at hcolumns
  cases hcolumns

/-- A call is refused exactly when it is listed, and with that error. -/
theorem answer_eq_error_iff (h : Consistent s) (e : Edit) :
    s.answer e = .error err ↔ s.Refuses e err := by
  have hrow : 0 < s.grid.lineCount Axis.row.other := h.cols_pos
  have hcol : 0 < s.grid.lineCount Axis.column.other := h.rows_pos
  have hnever {α : Type} {x : TableResult α} (hx : ∃ a, x = .ok a) : x = .error err ↔ False := by
    obtain ⟨a, rfl⟩ := hx
    simp
  rw [answer, ← changed_eq_error_iff]
  cases e with
  | beginSelection row col =>
    change s.beginSelection row col = _ ↔ _
    rw [beginSelection_eq, bind_pure_eq_error]
    exact Grid.check_eq_error_iff
  | setText row col text =>
    refine changed_silent_eq_error_iff.trans ?_
    change s.setText row col text = _ ↔ _
    rw [setText_eq, bind_pure_eq_error]
    exact Grid.updateCell_eq_error_iff
  | insertRow pos =>
    change s.insertRow pos = _ ↔ _
    rw [insertRow_eq, bind_pure_eq_error]
    exact Grid.insertLine_eq_error_iff
  | insertCol pos => exact h.insertCol_eq_error_iff.trans Grid.insertLine_eq_error_iff
  | deleteRow row =>
    change s.deleteRow row = _ ↔ _
    rw [deleteRow_eq, bind_pure_eq_error]
    exact Grid.deleteLine_eq_error_iff hrow
  | deleteCol col => exact h.deleteCol_eq_error_iff.trans (Grid.deleteLine_eq_error_iff hcol)
  | setKind col kind =>
    change s.setKind col kind = _ ↔ _
    rw [setKind_eq, bind_pure_eq_error, ColumnSpecs.setKind_eq_error_iff, ColumnSpecs.outOfBounds,
      h.columns]
    rfl
  | setWidth col width =>
    change s.setWidth col width = _ ↔ _
    rw [setWidth_eq, bind_pure_eq_error, ColumnSpecs.setWidth_eq_error_iff,
      ColumnSpecs.outOfBounds, h.columns]
    rfl
  | mergeSelection => exact hnever h.exists_merge
  | splitSelection =>
    obtain ⟨t, n, ht⟩ := h.exists_split
    exact changed_silent_eq_error_iff.trans (hnever ⟨_, ht⟩)
  | applyStyle command =>
    obtain ⟨t, n, ht⟩ := h.exists_style command
    exact changed_silent_eq_error_iff.trans (hnever ⟨_, ht⟩)
  | extendSelection row col | endSelection | selectAll | addRow | addCol | setDialect dialect
    | setOptions options => exact hnever ⟨_, rfl⟩

end Consistent

/-- After every run a call is refused exactly for the arguments that are listed, a refused call
changes nothing, and a question about a line is refused exactly for a line outside the grid. -/
theorem refused_unchanged (hs : Start s) (hrun : Run s t) :
    (∀ e err, t.answer e = .error err → t.after e = t) ∧
      (∀ e err, t.answer e = .error err ↔ t.Refuses e err) ∧
      (∀ row err, t.grid.rowHasContent row = .error err ↔
        t.grid.rows ≤ row ∧ err = t.grid.outOfBounds row 0) ∧
      ∀ col err, t.grid.colHasContent col = .error err ↔
        t.grid.cols ≤ col ∧ err = t.grid.outOfBounds 0 col := by
  have h := hs.consistent.run hrun
  refine ⟨fun e => h.atomic e, fun e _ => h.answer_eq_error_iff e, ?_, ?_⟩
  · intro row err
    have hcols : 0 < t.grid.lineCount Axis.row.other := h.cols_pos
    exact Grid.lineHasContent_eq_error_iff hcols
  · intro col err
    have hrows : 0 < t.grid.lineCount Axis.column.other := h.rows_pos
    exact Grid.lineHasContent_eq_error_iff hrows

theorem refused_unchanged_last_column :
    let s := blank 2 1
    let t := (s.after (.beginSelection 1 0)).after (.deleteRow 0)
    (∀ e err, t.answer e = .error err → t.after e = t) ∧
      (∀ e err, t.answer e = .error err ↔ t.Refuses e err) ∧
      (∀ row err, t.grid.rowHasContent row = .error err ↔
        t.grid.rows ≤ row ∧ err = t.grid.outOfBounds row 0) ∧
      ∀ col err, t.grid.colHasContent col = .error err ↔
        t.grid.cols ≤ col ∧ err = t.grid.outOfBounds 0 col := by
  refine refused_unchanged (.blank 2 1 ?_) (.edit _ (.edit _ .nil ?_) ?_) <;> decide

end Session
end LatexTable
