import LatexTable.Proofs.Grid.Transpose
import LatexTable.Proofs.Guarded.Lines
/-!
Rows against columns where they are edited cell by cell. A row is spliced into the store or drained
from it, a column is put into every row or taken out of it; still one edit is the other on the
transposed grid.
-/
namespace LatexTable.Grid

variable {g : Grid} {R : Set CellRange}

/-- The guarded edits of columns and of rectangles are those of the transposed grid, transposed. -/
structure GuardedMirrored (g : Grid) : Prop where
  insert : g.cols + 1 ≤ maxIndex → ∀ pos,
    Guarded.insertCol g pos = (Guarded.insertRow g.transpose pos).map reflected
  delete : ∀ pos, Guarded.deleteCol g pos = (Guarded.deleteRow g.transpose pos).map reflected
  add : g.cols + 1 ≤ maxIndex → Guarded.addCol g = (Guarded.addRow g.transpose).map transpose
  content : ∀ pos, Guarded.colHasContent g pos =
    (Guarded.rowHasContent g.transpose pos).map (mirrored id)
  merge : ∀ r : CellRange, r.Ordered →
    Guarded.merge g r = (Guarded.merge g.transpose r.transpose).map reflected
  split : ∀ r : CellRange,
    Guarded.split g r = (Guarded.split g.transpose r.transpose).map reflected

namespace Layout

theorem insertCol_mirrored (h : Layout g R) (hf : g.Fits) (hmax : g.cols + 1 ≤ maxIndex)
    (pos : Nat) : Guarded.insertCol g pos = (Guarded.insertRow g.transpose pos).map reflected := by
  rw [h.insertCol_guarded hf hmax, h.transpose.insertRow_guarded hf.transpose hmax,
    h.full.insertLine_reflected]
  rfl

theorem deleteCol_mirrored (h : Layout g R) (hf : g.Fits) (pos : Nat) :
    Guarded.deleteCol g pos = (Guarded.deleteRow g.transpose pos).map reflected := by
  rw [h.deleteCol_guarded hf, h.transpose.deleteRow_guarded hf.transpose,
    h.full.deleteLine_reflected]
  rfl

theorem colHasContent_mirrored (h : Layout g R) (hf : g.Fits) (pos : Nat) :
    Guarded.colHasContent g pos = (Guarded.rowHasContent g.transpose pos).map (mirrored id) := by
  rw [(h.stored hf).colHasContent_eq, (h.transpose.stored hf.transpose).rowHasContent_eq,
    colHasContent, h.full.lineHasContent_reflected]
  rfl

theorem merge_mirrored (h : Layout g R) (hf : g.Fits) {r : CellRange} (hord : r.Ordered) :
    Guarded.merge g r = (Guarded.merge g.transpose r.transpose).map reflected := by
  have hord' : r.transpose.Ordered := fun axis => by simpa using hord axis.other
  rw [h.merge_guarded hf hord, h.transpose.merge_guarded hf.transpose hord',
    h.full.merge_reflected]
  rfl

theorem split_mirrored (h : Layout g R) (hf : g.Fits) (r : CellRange) :
    Guarded.split g r = (Guarded.split g.transpose r.transpose).map reflected := by
  rw [h.split_guarded hf, h.transpose.split_guarded hf.transpose, h.full.split_reflected]
  rfl

end Layout

/-- In every reachable grid a column is edited cell by cell as the row of the transposed grid is. -/
theorem reachable_guardedMirrored (h : g.Reachable) : g.GuardedMirrored where
  insert := h.layout.insertCol_mirrored h.fits
  delete := h.layout.deleteCol_mirrored h.fits
  add := by
    intro hmax
    have hrows : g.transpose.rows = g.cols := rfl
    rw [Guarded.addCol, Guarded.addRow, hrows, h.layout.insertCol_mirrored h.fits hmax]
    cases Guarded.insertRow g.transpose g.cols <;> rfl
  content := h.layout.colHasContent_mirrored h.fits
  merge := fun _ => h.layout.merge_mirrored h.fits
  split := h.layout.split_mirrored h.fits

end LatexTable.Grid
