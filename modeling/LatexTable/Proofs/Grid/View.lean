import LatexTable.Grid.Lines
import LatexTable.Proofs.Result
import Mathlib.Tactic.Common
/-!
The view of a grid: what `cellAt` says of the grids that operations build, and that a full store is
determined by it.
-/
namespace LatexTable.Grid

variable {g h : Grid} {row col rows cols : Nat} {axis : Axis}

/-- A search finds the only element that satisfies the predicate. -/
theorem find?_eq_some_of_unique {α : Type} {p : α → Bool} {as : List α} {a : α} (ha : a ∈ as)
    (hp : p a = true) (hunique : ∀ b ∈ as, p b = true → b = a) : as.find? p = some a := by
  cases hfind : as.find? p with
  | none => exact absurd hp (List.find?_eq_none.mp hfind a ha)
  | some b => rw [hunique b (List.mem_of_find?_eq_some hfind) (List.find?_some hfind)]

/-- The store holds a cell for every place. -/
def Full (g : Grid) : Prop := g.cells.size = g.rows * g.cols

theorem index_lt (hr : row < rows) (hc : col < cols) : row * cols + col < rows * cols :=
  calc row * cols + col < row * cols + cols := by omega
    _ = (row + 1) * cols := (Nat.succ_mul row cols).symm
    _ ≤ rows * cols := Nat.mul_le_mul_right cols hr

theorem tabulate_full (rows cols : Nat) (f : Nat → Nat → Cell) : (tabulate rows cols f).Full := by
  simp [Full, tabulate]

theorem cellAt_tabulate {f : Nat → Nat → Cell} (hr : row < rows) (hc : col < cols) :
    (tabulate rows cols f).cellAt row col = f row col := by
  have hi := index_lt hr hc
  have hpos : 0 < cols := Nat.zero_lt_of_lt hc
  have hdiv : (row * cols + col) / cols = row := by
    rw [Nat.add_comm, Nat.add_mul_div_right _ _ hpos, Nat.div_eq_of_lt hc, Nat.zero_add]
  have hmod : (row * cols + col) % cols = col := by
    rw [Nat.add_comm, Nat.add_mul_mod_self_right, Nat.mod_eq_of_lt hc]
  simp [cellAt, get?, tabulate, hr, hc, hi, hdiv, hmod]

theorem cellAt_of_not_lt (h : ¬(row < g.rows ∧ col < g.cols)) : g.cellAt row col = .empty := by
  simp [cellAt, get?, h]

theorem Full.get?_eq (hg : g.Full) (hr : row < g.rows) (hc : col < g.cols) :
    g.get? row col = some (g.cellAt row col) := by
  have hi := index_lt hr hc
  rw [← hg] at hi
  simp [cellAt, get?, hr, hc, hi]

/-- Every stored cell is the cell of a place. -/
theorem Full.exists_cellAt (hg : g.Full) {c : Cell} (h : c ∈ g.cells) :
    ∃ row col, row < g.rows ∧ col < g.cols ∧ g.cellAt row col = c := by
  obtain ⟨i, hi, rfl⟩ := Array.mem_iff_getElem.mp h
  have hlt : i < g.rows * g.cols := hg ▸ hi
  have hpos : 0 < g.cols := Nat.pos_of_mul_pos_left (Nat.zero_lt_of_lt hlt)
  have hr : i / g.cols < g.rows := (Nat.div_lt_iff_lt_mul hpos).mpr hlt
  have hc : i % g.cols < g.cols := Nat.mod_lt i hpos
  refine ⟨i / g.cols, i % g.cols, hr, hc, ?_⟩
  simp [cellAt, get?, hr, hc, Nat.div_add_mod', hi]

/-- Full grids of one size with the same view are equal. -/
theorem Full.ext (hg : g.Full) (hh : h.Full) (hr : g.rows = h.rows) (hc : g.cols = h.cols)
    (hcell : ∀ row col, row < g.rows → col < g.cols → g.cellAt row col = h.cellAt row col) :
    g = h := by
  obtain ⟨rows, cols, cells⟩ := g
  obtain ⟨rows', cols', cells'⟩ := h
  obtain rfl : rows = rows' := hr
  obtain rfl : cols = cols' := hc
  congr 1
  have hs : cells.size = rows * cols := hg
  have hs' : cells'.size = rows * cols := hh
  apply Array.ext (hs.trans hs'.symm)
  intro i hi hi'
  have hlt : i < rows * cols := hs ▸ hi
  have hpos : 0 < cols := Nat.pos_of_mul_pos_left (Nat.zero_lt_of_lt hlt)
  have hr : i / cols < rows := (Nat.div_lt_iff_lt_mul hpos).mpr hlt
  have hc : i % cols < cols := Nat.mod_lt i hpos
  have heq := hcell (i / cols) (i % cols) hr hc
  simpa [cellAt, get?, hr, hc, Nat.div_add_mod', hi, hi'] using heq

theorem mem_places : (row, col) ∈ g.places ↔ row < g.rows ∧ col < g.cols := by
  simp [places]

theorem mem_flatten_rowList {c : Cell} :
    c ∈ g.rowList.flatten ↔ ∃ row < g.rows, ∃ col < g.cols, g.cellAt row col = c := by
  simp [rowList, List.mem_flatten]

/-- Values by row and column, row by row. -/
theorem flatten_rows {α : Type} (v : Nat → Nat → α) :
    ((List.range g.rows).map fun row => (List.range g.cols).map (v row)).flatten =
      g.places.map fun (row, col) => v row col := by
  simp [places, List.flatMap_def, Function.comp_def]

theorem flatten_rowList : g.rowList.flatten = g.places.map fun (row, col) => g.cellAt row col :=
  flatten_rows g.cellAt

section Axis

variable {lines line offset : Nat} {f : Nat → Nat → Cell} {err : TableError}

theorem tabulateLines_full : (g.tabulateLines axis lines f).Full := by
  cases axis <;> exact tabulate_full ..

@[simp] theorem lineCount_tabulateLines :
    (g.tabulateLines axis lines f).lineCount axis = lines := by cases axis <;> rfl

@[simp] theorem lineCount_other_tabulateLines :
    (g.tabulateLines axis lines f).lineCount axis.other = g.lineCount axis.other := by
  cases axis <;> rfl

theorem cellOn_tabulateLines (hl : line < lines) (ho : offset < g.lineCount axis.other) :
    (g.tabulateLines axis lines f).cellOn axis line offset = f line offset := by
  cases axis
  · exact cellAt_tabulate hl ho
  · exact cellAt_tabulate (f := fun row col => f col row) ho hl

theorem cellOn_of_not_lt (h : ¬(line < g.lineCount axis ∧ offset < g.lineCount axis.other)) :
    g.cellOn axis line offset = .empty := by
  cases axis
  · exact cellAt_of_not_lt h
  · exact cellAt_of_not_lt fun hp => h hp.symm

theorem check_eq_ok_iff : g.check row col = .ok () ↔ row < g.rows ∧ col < g.cols := by
  unfold check
  split <;> simp_all

theorem check_eq_error_iff :
    g.check row col = .error err ↔
      ¬(row < g.rows ∧ col < g.cols) ∧ err = g.outOfBounds row col := by
  by_cases hin : row < g.rows ∧ col < g.cols
  · simp [check, hin]
  · simpa [check, hin] using eq_comm

theorem checkLine_eq_ok_iff (hpos : 0 < g.lineCount axis.other) :
    g.checkLine axis line = .ok () ↔ line < g.lineCount axis := by
  cases axis <;> simp_all [checkLine, Axis.place, check_eq_ok_iff, lineCount, Axis.other]

theorem checkRange_eq_ok_iff {r : CellRange} :
    g.checkRange r = .ok () ↔
      (r.minRow < g.rows ∧ r.minCol < g.cols) ∧ r.maxRow < g.rows ∧ r.maxCol < g.cols := by
  simp only [checkRange, Result.check_bind_eq_ok, check_eq_ok_iff]

/-- A rectangle is refused with the error of the first corner that lies outside. -/
theorem checkRange_outside {r : CellRange} (hout : ¬(r.maxRow < g.rows ∧ r.maxCol < g.cols)) :
    g.checkRange r = .error (if r.minRow < g.rows ∧ r.minCol < g.cols
      then g.outOfBounds r.maxRow r.maxCol else g.outOfBounds r.minRow r.minCol) := by
  rw [checkRange, Result.check_bind_eq_error, check_eq_error_iff, check_eq_error_iff,
    check_eq_ok_iff]
  split
  next hfirst => exact .inr ⟨hfirst, hout, rfl⟩
  next hfirst => exact .inl ⟨hfirst, rfl⟩

end Axis

end LatexTable.Grid
