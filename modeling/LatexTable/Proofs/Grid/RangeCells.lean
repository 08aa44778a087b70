import LatexTable.Proofs.Grid.Range
import Mathlib.Data.List.Nodup
import Mathlib.Data.List.Range
/-!
A rectangle as a list of places, as a test for a place, and as a test for a place in common with
another rectangle. The three agree, and the smallest rectangle around two corners is the same
whichever way the corners are given.
-/
namespace LatexTable.CellRange

variable {r s : CellRange} {row col rowA colA rowB colB : Nat}

theorem mem_cells (h : r.Ordered) : (row, col) ∈ r.cells ↔ r.contains row col = true := by
  have hr : r.minRow ≤ r.maxRow := h .row
  have hc : r.minCol ≤ r.maxCol := h .column
  simp only [cells, List.mem_flatMap, List.mem_map, List.mem_range'_1, Prod.mk.injEq, contains_iff,
    rowCount, colCount]
  constructor
  · rintro ⟨_, hrow, _, hcol, rfl, rfl⟩
    omega
  · intro hin
    exact ⟨row, by omega, col, by omega, rfl, rfl⟩

/-- Rows from above, each from left to right. -/
theorem cells_sorted (r : CellRange) : r.cells.Pairwise (Prod.Lex (· < ·) (· < ·)) := by
  rw [cells, List.pairwise_flatMap]
  constructor
  · intro row _
    rw [List.pairwise_map]
    exact (List.pairwise_lt_range' 1).imp fun hlt => Prod.Lex.right row hlt
  · refine (List.pairwise_lt_range' 1).imp fun hlt p hp q hq => ?_
    obtain ⟨_, -, rfl⟩ := List.mem_map.mp hp
    obtain ⟨_, -, rfl⟩ := List.mem_map.mp hq
    exact Prod.Lex.left _ _ hlt

theorem cells_nodup (r : CellRange) : r.cells.Nodup := r.cells_sorted.nodup

theorem length_cells (r : CellRange) : r.cells.length = r.rowCount * r.colCount := by
  simp [cells, List.length_flatMap]

theorem count_cells (h : r.Ordered) :
    r.cells.count (row, col) = if r.contains row col = true then 1 else 0 := by
  rw [List.Nodup.count r.cells_nodup]
  exact if_congr (mem_cells h) rfl rfl

/-- Rectangles meet when some place is in both lists. -/
theorem intersects_iff_exists_mem (hr : r.Ordered) (hs : s.Ordered) :
    r.intersects s = true ↔ ∃ p, p ∈ r.cells ∧ p ∈ s.cells := by
  constructor
  · intro h
    obtain ⟨row, col, hrc, hsc⟩ := exists_contains_of_intersects hr hs h
    exact ⟨(row, col), (mem_cells hr).mpr hrc, (mem_cells hs).mpr hsc⟩
  · rintro ⟨⟨row, col⟩, hrc, hsc⟩
    exact intersects_of_contains ((mem_cells hr).mp hrc) ((mem_cells hs).mp hsc)

/-- The rectangle that two corners give, or a cell with its spans, all its coordinates being below
the largest index. -/
structure Built (r : CellRange) : Prop where
  given : (∃ rowA colA rowB colB, r = ofCorners rowA colA rowB colB) ∨
    ∃ row col rowSpan colSpan, r = ofSpan row col rowSpan colSpan
  below : ∀ axis, r.first axis < maxIndex ∧ r.last axis < maxIndex

/-- The list goes through the rectangle in reading order and meets each place once. -/
structure Enumerated (r : CellRange) : Prop where
  sorted : r.cells.Pairwise (Prod.Lex (· < ·) (· < ·))
  once : ∀ row col, r.cells.count (row, col) = if r.contains row col = true then 1 else 0
  mem_iff : ∀ row col, r.contains row col = true ↔ (row, col) ∈ r.cells
  length : r.cells.length = r.rowCount * r.colCount
  sides : r.rowCount ≤ maxIndex ∧ r.colCount ≤ maxIndex

/-- The rectangle around two corners: which two opposite corners are given, and which of them
first, makes no difference, and every rectangle that holds both corners holds all of it. -/
structure Bounding (rowA colA rowB colB : Nat) : Prop where
  swapped : ofCorners rowB colB rowA colA = ofCorners rowA colA rowB colB
  crossed : ofCorners rowA colB rowB colA = ofCorners rowA colA rowB colB
  crossed_swapped : ofCorners rowB colA rowA colB = ofCorners rowA colA rowB colB
  holds : (ofCorners rowA colA rowB colB).contains rowA colA = true ∧
    (ofCorners rowA colA rowB colB).contains rowB colB = true
  least : ∀ t : CellRange, t.contains rowA colA = true → t.contains rowB colB = true →
    ∀ row col, (ofCorners rowA colA rowB colB).contains row col = true → t.contains row col = true

/-- The end of a footprint below the largest index has not been cut off. -/
theorem Built.ordered (h : r.Built) : r.Ordered := by
  obtain ⟨rowA, colA, rowB, colB, rfl⟩ | ⟨row, col, rowSpan, colSpan, rfl⟩ := h.given
  · exact ofCorners_ordered rowA colA rowB colB
  · intro axis
    have hlast := (h.below axis).2
    cases axis <;> simp only [ofSpan, first, last] at * <;> omega

theorem Built.enumerated (h : r.Built) : r.Enumerated where
  sorted := r.cells_sorted
  once _ _ := count_cells h.ordered
  mem_iff _ _ := (mem_cells h.ordered).symm
  length := r.length_cells
  sides := by
    have hrow := (h.below .row).2
    have hcol := (h.below .column).2
    simp only [last, rowCount, colCount] at *
    omega

theorem bounding (rowA colA rowB colB : Nat) : Bounding rowA colA rowB colB where
  swapped := by simp only [ofCorners, min_comm, max_comm]
  crossed := by simp only [ofCorners, min_comm, max_comm]
  crossed_swapped := by simp only [ofCorners, min_comm, max_comm]
  holds := by
    simp only [contains_iff, ofCorners]
    omega
  least := by
    intro t ha hb row col hin
    rw [contains_iff] at *
    simp only [ofCorners] at hin
    omega

/-- List, membership and overlap of rectangles tell the same, and two corners bound the smallest
rectangle that holds them. -/
theorem built_geometry (hr : r.Built) (hs : s.Built) (rowA colA rowB colB : Nat) :
    (r.Enumerated ∧ s.Enumerated) ∧
      (r.intersects s = true ↔ ∃ p, p ∈ r.cells ∧ p ∈ s.cells) ∧
        r.intersects s = s.intersects r ∧ Bounding rowA colA rowB colB :=
  ⟨⟨hr.enumerated, hs.enumerated⟩, intersects_iff_exists_mem hr.ordered hs.ordered,
    intersects_comm, bounding rowA colA rowB colB⟩

theorem built_geometry_touching :
    let r := ofCorners 3 1 1 4
    let s := ofSpan 3 4 2 0
    (r.Built ∧ s.Built) ∧ (r.Enumerated ∧ s.Enumerated) ∧
      (r.intersects s = true ↔ ∃ p, p ∈ r.cells ∧ p ∈ s.cells) ∧
        r.intersects s = s.intersects r ∧ Bounding 3 1 1 4 := by
  intro r s
  have hr : r.Built := ⟨.inl ⟨3, 1, 1, 4, rfl⟩, fun axis => by cases axis <;> decide⟩
  have hs : s.Built := ⟨.inr ⟨3, 4, 2, 0, rfl⟩, fun axis => by cases axis <;> decide⟩
  exact ⟨⟨hr, hs⟩, built_geometry hr hs 3 1 1 4⟩

end LatexTable.CellRange
