import LatexTable.Proofs.Grid.Encoding
import LatexTable.Proofs.Grid.RangeCells
import LatexTable.Proofs.Guarded.Store
import Mathlib.Data.List.Range
/-!
A grid read and written cell by cell, and what the questions about a grid answer when every access
to the store is guarded. A loop that writes cells is described by the places that are done.
-/
namespace LatexTable

namespace Guarded

def readCell (g : Grid) (row col : Nat) : Guarded Cell := do
  read g.cells (← offset g.cols row col)

def writeCell (g : Grid) (row col : Nat) (c : Cell) : Guarded Grid := do
  let cells ← write g.cells (← offset g.cols row col) c
  return { g with cells }

/-- The cell at a place, if there is one. -/
def get? (g : Grid) (row col : Nat) : Guarded (Option Cell) :=
  if row < g.rows && col < g.cols then do return some (← readCell g row col) else return none

def cell (g : Grid) (row col : Nat) : Guarded (TableResult Cell) :=
  proceed (g.check row col) fun _ => do return .ok (← readCell g row col)

/-- One row, as a piece of the store. -/
def row (g : Grid) (row : Nat) : Guarded (TableResult (List Cell)) :=
  proceed (g.check row 0) fun _ => do
    let start ← offset g.cols row 0
    return .ok (← slice g.cells.toList start (← add start g.cols))

/-- All rows, as pieces of the store. -/
def rowList (g : Grid) : Guarded (List (List Cell)) := chunks g.cols g.cells.toList

/-- The rectangle of a cell; its end stays at the largest index. -/
def footprint (c : Cell) (row col : Nat) : Guarded CellRange := do
  let below ← sub (max c.rowSpan 1) 1
  let right ← sub (max c.colSpan 1) 1
  return ⟨row, col, min (row + below) maxIndex, min (col + right) maxIndex⟩

def lineCount (r : CellRange) (axis : Axis) : Guarded Nat := do
  add (← sub (r.last axis) (r.first axis)) 1

def regions (g : Grid) : Guarded (List CellRange) := do
  let found ← g.places.mapM fun (row, col) => do
    let c ← readCell g row col
    if c.isMaster then return some (← footprint c row col) else return none
  return found.filterMap id

def ownerOf (g : Grid) (row col : Nat) : Guarded (TableResult (Nat × Nat)) :=
  proceed (g.check row col) fun _ => do
    let c ← readCell g row col
    if c.hidden then
      let owner? ← (Grid.placesBack row col).findM? fun (r, k) => do
        let master ← readCell g r k
        if master.isMaster then return (← footprint master r k).contains row col else return false
      return .ok (owner?.getD (row, col))
    else return .ok (row, col)

end Guarded

namespace Guarded

theorem footprint_eq (c : Cell) (row col : Nat) :
    footprint c row col = .ok (c.footprint row col) := by
  have hrow : 1 ≤ max c.rowSpan 1 := le_max_right ..
  have hcol : 1 ≤ max c.colSpan 1 := le_max_right ..
  rw [footprint, sub_eq hrow, ok_bind, sub_eq hcol]
  rfl

theorem lineCount_eq {r : CellRange} {axis : Axis} (h : r.Ordered)
    (hlast : r.last axis < maxIndex) : lineCount r axis = .ok (r.lineCount axis) := by
  rw [lineCount, sub_eq (h axis), ok_bind, add_eq (by omega), CellRange.lineCount_eq]

end Guarded

namespace Grid

/-- The store holds a cell for every place, and its size is an index. -/
structure Stored (g : Grid) : Prop where
  full : g.Full
  fits : g.Fits

variable {g : Grid} {row col : Nat} {f : Nat → Nat → Cell}

theorem stored_tabulate (h : g.Stored) : (tabulate g.rows g.cols f).Stored :=
  ⟨tabulate_full .., h.fits⟩

theorem mem_placesBack {r k : Nat} : (r, k) ∈ placesBack row col ↔ r ≤ row ∧ k ≤ col := by
  simp only [placesBack, List.mem_flatMap, List.mem_map, List.mem_reverse, List.mem_range,
    Nat.lt_succ_iff, Prod.mk.injEq, existsAndEq, and_true]

namespace Stored

theorem readCell_eq (h : g.Stored) (hr : row < g.rows) (hc : col < g.cols) :
    Guarded.readCell g row col = .ok (g.cellAt row col) := by
  rw [Guarded.readCell, Guarded.offset_eq hr hc h.fits, Guarded.ok_bind, h.full.cells_eq,
    Guarded.read_laidOut hr hc]

/-- A write changes the cell of its place and no other. -/
theorem writeCell_eq (h : g.Stored) (hr : row < g.rows) (hc : col < g.cols) (c : Cell) :
    Guarded.writeCell g row col c =
      .ok (tabulate g.rows g.cols fun r k => if r = row ∧ k = col then c else g.cellAt r k) := by
  rw [Guarded.writeCell, Guarded.offset_eq hr hc h.fits, Guarded.ok_bind, h.full.cells_eq,
    Guarded.write_laidOut hr hc]
  rfl

theorem get?_eq (h : g.Stored) : Guarded.get? g row col = .ok (g.get? row col) := by
  unfold Guarded.get?
  by_cases hin : row < g.rows ∧ col < g.cols
  · rw [h.full.get?_eq hin.1 hin.2, if_pos (by simp [hin]), h.readCell_eq hin.1 hin.2]
    rfl
  · rw [if_neg (by simpa using hin), Grid.get?, if_neg (by simpa using hin)]
    rfl

theorem cell_eq (h : g.Stored) : Guarded.cell g row col = .ok (g.cell row col) := by
  refine Guarded.proceed_eq fun _ hcheck => ?_
  obtain ⟨hr, hc⟩ := check_eq_ok_iff.mp hcheck
  rw [h.readCell_eq hr hc]
  rfl

theorem row_eq (h : g.Stored) : Guarded.row g row = .ok (g.row row) := by
  refine Guarded.proceed_eq fun _ hcheck => ?_
  obtain ⟨hr, hc⟩ := check_eq_ok_iff.mp hcheck
  have hlength : ∀ line ∈ g.rowList, line.length = g.cols := fun _ => length_of_mem_rowList
  have hstop : row * g.cols + 0 + g.cols = (row + 1) * g.cols := by rw [Nat.succ_mul, Nat.add_zero]
  have hle : (row + 1) * g.cols ≤ g.rows * g.cols := Nat.mul_le_mul_right _ hr
  have hsize : g.cells.toList.length = g.rows * g.cols := by rw [Array.length_toList]; exact h.full
  rw [Guarded.offset_eq hr hc h.fits, Guarded.ok_bind,
    Guarded.add_eq (by rw [hstop]; exact hle.trans h.fits), Guarded.ok_bind,
    Guarded.slice_eq (Nat.le_add_right ..) (by rwa [hstop, hsize]), hstop, h.full.toList_cells,
    take_flatten hlength, Nat.add_zero,
    drop_flatten fun line hline => hlength line (List.mem_of_mem_take hline)]
  -- one row is left of the first rows without those before it
  have hone : (g.rowList.take (row + 1)).drop row = [(List.range g.cols).map (g.cellAt row)] := by
    rw [List.drop_take, Nat.add_sub_cancel_left,
      List.drop_eq_getElem_cons (by rwa [length_rowList]), List.take_succ_cons, List.take_zero]
    simp [rowList]
  rw [hone, List.flatten_singleton]
  rfl

theorem rowList_eq (h : g.Stored) (hpos : 0 < g.cols) : Guarded.rowList g = .ok g.rowList := by
  rw [Guarded.rowList, h.full.toList_cells,
    Guarded.chunks_flatten hpos fun _ => length_of_mem_rowList]

theorem regions_eq (h : g.Stored) : Guarded.regions g = .ok g.regions := by
  rw [Guarded.regions, Guarded.mapM_eq (g := fun (r, k) =>
    if (g.cellAt r k).isMaster then some ((g.cellAt r k).footprint r k) else none)]
  · rw [Guarded.ok_bind, List.filterMap_map]
    rfl
  · rintro ⟨r, k⟩ hp
    obtain ⟨hr, hk⟩ := mem_places.mp hp
    simp only [h.readCell_eq hr hk, Guarded.ok_bind, Guarded.footprint_eq]
    split <;> rfl

theorem ownerOf_eq (h : g.Stored) : Guarded.ownerOf g row col = .ok (g.ownerOf row col) := by
  refine Guarded.proceed_eq fun _ hcheck => ?_
  obtain ⟨hr, hc⟩ := check_eq_ok_iff.mp hcheck
  rw [h.readCell_eq hr hc, Guarded.ok_bind, ownerAt]
  split
  · rw [Guarded.findM?_eq (p := fun (r, k) =>
      (g.cellAt r k).isMaster && ((g.cellAt r k).footprint r k).contains row col)]
    · rfl
    · rintro ⟨r, k⟩ hp
      obtain ⟨hrow, hcol⟩ := mem_placesBack.mp hp
      simp only [h.readCell_eq (hrow.trans_lt hr) (hcol.trans_lt hc), Guarded.ok_bind,
        Guarded.footprint_eq]
      cases (g.cellAt r k).isMaster <;> rfl
  · rfl

end Stored

/-- A computation on every cell of the rows, which are counted on the way. -/
theorem mapM_rowList {α : Type} {v : Cell → Nat → Nat → α} {t : Cell → Nat → Nat → Guarded α}
    (h : ∀ row < g.rows, ∀ col < g.cols,
      t (g.cellAt row col) row col = .ok (v (g.cellAt row col) row col)) :
    (g.rowList.zipIdx.mapM fun (line, row) => line.zipIdx.mapM fun (c, col) => t c row col) =
      .ok ((List.range g.rows).map fun row =>
        (List.range g.cols).map fun col => v (g.cellAt row col) row col) := by
  have hrows : g.rowList.zipIdx =
      (List.range g.rows).map fun row => ((List.range g.cols).map (g.cellAt row), row) :=
    zipIdx_map_range
  rw [hrows, List.mapM_map]
  apply Guarded.mapM_eq
  intro row hrow
  simp only [Function.comp_apply, zipIdx_map_range, List.mapM_map]
  apply Guarded.mapM_eq
  intro col hcol
  exact h row (List.mem_range.mp hrow) col (List.mem_range.mp hcol)

/-- The grid with other cells at the given places. -/
def overlaid (g : Grid) (done : List (Nat × Nat)) (f : Nat → Nat → Cell) : Grid :=
  tabulate g.rows g.cols fun row col => if (row, col) ∈ done then f row col else g.cellAt row col

section Overlaid

variable {d : List (Nat × Nat)}

/-- Where nothing is left of the old cells, the new ones alone make up the grid. -/
theorem overlaid_eq_tabulate
    (h : ∀ row < g.rows, ∀ col < g.cols, (row, col) ∉ d → f row col = g.cellAt row col) :
    g.overlaid d f = tabulate g.rows g.cols f := by
  apply tabulate_congr
  intro row hr col hc
  split_ifs with hin
  · rfl
  · exact (h row hr col hc hin).symm

theorem overlaid_nil (h : g.Full) : g.overlaid [] f = g := by
  conv_rhs => rw [h.eq_tabulate]
  exact tabulate_congr fun _ _ _ _ => if_neg List.not_mem_nil

/-- A place whose cell stays as it is can be counted among those that are done. -/
theorem overlaid_append_of_eq (h : f row col = g.cellAt row col) :
    g.overlaid (d ++ [(row, col)]) f = g.overlaid d f := by
  apply tabulate_congr
  intro r _ k _
  by_cases hat : r = row ∧ k = col
  · obtain ⟨rfl, rfl⟩ := hat
    simp [h]
  · simp [hat]

theorem cellAt_overlaid_of_notMem (hnew : (row, col) ∉ d) :
    (g.overlaid d f).cellAt row col = g.cellAt row col := by
  by_cases hin : row < g.rows ∧ col < g.cols
  · rw [overlaid, cellAt_tabulate hin.1 hin.2, if_neg hnew]
  · rw [cellAt_of_not_lt (g := g.overlaid d f) hin, cellAt_of_not_lt hin]

namespace Stored

theorem overlaid (h : g.Stored) : (g.overlaid d f).Stored := stored_tabulate h

theorem readCell_overlaid (h : g.Stored) (hr : row < g.rows) (hc : col < g.cols)
    (hnew : (row, col) ∉ d) :
    Guarded.readCell (g.overlaid d f) row col = .ok (g.cellAt row col) := by
  rw [h.overlaid.readCell_eq hr hc, cellAt_overlaid_of_notMem hnew]

/-- One place more is done. -/
theorem writeCell_overlaid (h : g.Stored) (hr : row < g.rows) (hc : col < g.cols) :
    Guarded.writeCell (g.overlaid d f) row col (f row col) =
      .ok (g.overlaid (d ++ [(row, col)]) f) := by
  rw [h.overlaid.writeCell_eq hr hc]
  congr 1
  apply tabulate_congr
  intro r hr' k hk
  simp only [List.mem_append, List.mem_singleton, Prod.mk.injEq]
  by_cases hat : r = row ∧ k = col
  · obtain ⟨rfl, rfl⟩ := hat
    simp
  · have hcell : (g.overlaid d f).cellAt r k =
        if (r, k) ∈ d then f r k else g.cellAt r k := cellAt_tabulate hr' hk
    rw [if_neg hat, hcell]
    simp [hat]

/-- A loop that writes every cell of a new grid which differs from the old one. -/
theorem foldlM_overlaid (h : g.Stored) {α : Type} {step : Grid → α → Guarded Grid}
    {t : α → Nat × Nat} {l : List α}
    (hstep : ∀ done x rest, l = done ++ x :: rest →
      step (g.overlaid (done.map t) f) x = .ok (g.overlaid (done.map t ++ [t x]) f))
    (hrest : ∀ row < g.rows, ∀ col < g.cols, (row, col) ∉ l.map t → f row col = g.cellAt row col) :
    l.foldlM step g = .ok (tabulate g.rows g.cols f) := by
  have hrun := Guarded.foldlM_eq (f := step) (l := l) (s := fun done => g.overlaid (done.map t) f)
    fun done x rest hl => by
      rw [hstep done x rest hl, List.map_append]
      rfl
  rwa [List.map_nil, overlaid_nil h.full, overlaid_eq_tabulate hrest] at hrun

end Stored

/-- In a list without repetition an element is not among those before it. -/
theorem notMem_done {α : Type} {t : α → Nat × Nat} {l done rest : List α} {x : α}
    (hnodup : (l.map t).Nodup) (hl : l = done ++ x :: rest) : t x ∉ done.map t := by
  subst hl
  rw [List.map_append, List.map_cons, List.nodup_append] at hnodup
  exact fun hmem => hnodup.2.2 _ hmem _ List.mem_cons_self rfl

end Overlaid
end Grid
end LatexTable
