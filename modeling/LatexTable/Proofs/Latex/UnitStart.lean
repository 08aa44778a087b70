import LatexTable.Latex.RowUnit
import LatexTable.Proofs.Grid.Owner
/-!
Where the units of a row begin. A unit begins at a left edge and ends before the next one, so the
walk through a row meets visible cells and left edges of regions, and nothing else.
-/
namespace LatexTable.Grid

variable {g : Grid} {R : Set CellRange} {r : CellRange} {row col : Nat}

/-- The regions that cover the place begin in its column. -/
def LeftEdge (R : Set CellRange) (row col : Nat) : Prop :=
  ∀ r ∈ R, r.contains row col = true → r.minCol = col

theorem leftEdge_zero : LeftEdge R row 0 := by
  intro r _ hc
  exact Nat.le_zero.mp (CellRange.contains_iff.mp hc).2.1

namespace Layout

theorem unitStart_visible (h : Layout g R) (hr : row < g.rows) (hc : col < g.cols)
    (hv : (g.cellAt row col).hidden = false) :
    g.unitStart row col = .visible (g.cellAt row col) := by
  simp [unitStart, h.full.get?_eq hr hc, hv]

/-- Below its first row a region holds shadows. -/
theorem shadow_of_continues (h : Layout g R) (hr : r ∈ R)
    (hrow : r.minRow < row ∧ row ≤ r.maxRow) :
    r.contains row r.minCol = true ∧ r.startsAt row r.minCol = false := by
  constructor
  · exact (h.ordered r hr).contains_edge ⟨hrow.1.le, hrow.2⟩
  · rw [← Bool.not_eq_true, CellRange.startsAt_iff]
    exact fun heq => hrow.1.ne heq.1

theorem hidden_of_continues (h : Layout g R) (hr : r ∈ R)
    (hrow : r.minRow < row ∧ row ≤ r.maxRow) : (g.cellAt row r.minCol).hidden = true :=
  h.hidden_iff.mpr ⟨r, hr, h.shadow_of_continues hr hrow⟩

theorem unitStart_continuation (h : Layout g R) (hf : g.Fits) (hr : r ∈ R)
    (hrow : r.minRow < row ∧ row ≤ r.maxRow) :
    g.unitStart row r.minCol = .continuation (g.cellAt r.minRow r.minCol) := by
  obtain ⟨hc, hs⟩ := h.shadow_of_continues hr hrow
  have hlt := h.lt_of_contains hr hc
  have hhidden := h.hidden_of_continues hr hrow
  have howner : g.ownerOf row r.minCol = .ok (r.minRow, r.minCol) := by
    rw [ownerOf_of_lt hlt.1 hlt.2, h.ownerAt_of_contains (h.indexed hf) hr hc]
  simp [unitStart, h.full.get?_eq hlt.1 hlt.2, hhidden, howner, hrow.1]

theorem leftEdge_of_visible (h : Layout g R) (hv : (g.cellAt row col).hidden = false) :
    LeftEdge R row col := by
  intro r hr hc
  cases hs : r.startsAt row col with
  | true => exact (CellRange.startsAt_iff.mp hs).2
  | false => simp [h.hidden_iff.mpr ⟨r, hr, hc, hs⟩] at hv

theorem leftEdge_of_region (h : Layout g R) (hr : r ∈ R)
    (hrow : r.minRow ≤ row ∧ row ≤ r.maxRow) : LeftEdge R row r.minCol := by
  intro s hs hsc
  rw [h.eq_of_contains hs hr hsc ((h.ordered r hr).contains_edge hrow)]

/-- At a left edge stands a visible cell, or a region that began in an earlier row. -/
theorem visible_or_continues (h : Layout g R) (hedge : LeftEdge R row col) :
    (g.cellAt row col).hidden = false ∨
      ∃ r ∈ R, r.minCol = col ∧ r.minRow < row ∧ row ≤ r.maxRow := by
  cases hh : (g.cellAt row col).hidden with
  | false => exact .inl rfl
  | true =>
    obtain ⟨r, hr, hc, hs⟩ := h.hidden_iff.mp hh
    obtain ⟨⟨hmin, hmax⟩, -⟩ := CellRange.contains_iff.mp hc
    have hcol := hedge r hr hc
    refine .inr ⟨r, hr, hcol, lt_of_le_of_ne hmin fun hrow => ?_, hmax⟩
    rw [CellRange.startsAt_iff.mpr ⟨hrow, hcol⟩] at hs
    contradiction

/-- A region takes as many columns as it has, in each of its rows. -/
theorem width_region (h : Layout g R) (hf : g.Fits) (hr : r ∈ R)
    (hrow : r.minRow ≤ row ∧ row ≤ r.maxRow) :
    (g.unitStart row r.minCol).width = r.colCount := by
  obtain ⟨hv, hspan⟩ := h.owner r hr _ _ r.startsAt_first
  have hcount : (g.cellAt r.minRow r.minCol).colSpan = r.colCount := hspan .column
  have hmax : max r.colCount 1 = r.colCount := max_eq_left (Nat.succ_pos _)
  rcases hrow.1.eq_or_lt with rfl | hlt
  · obtain ⟨hlr, hlc⟩ := h.first_lt hr
    rw [h.unitStart_visible hlr hlc hv, UnitStart.width, hcount, hmax]
  · rw [h.unitStart_continuation hf hr ⟨hlt, hrow.2⟩, UnitStart.width, hcount, hmax]

theorem width_free (h : Layout g R) (hr : row < g.rows) (hc : col < g.cols)
    (hfree : ∀ r ∈ R, r.contains row col = false) : (g.unitStart row col).width = 1 := by
  obtain ⟨hv, hspan⟩ := h.free row col hfree
  have hone : (g.cellAt row col).colSpan = 1 := hspan .column
  rw [h.unitStart_visible hr hc hv, UnitStart.width, hone, max_self]

/-- What begins at a left edge: a region of that width, or a free cell. -/
theorem region_or_free (h : Layout g R) (hf : g.Fits) (hr : row < g.rows) (hc : col < g.cols)
    (hedge : LeftEdge R row col) :
    (∃ r ∈ R, r.contains row col = true ∧ r.minCol = col ∧
        (g.unitStart row col).width = r.colCount) ∨
      (∀ r ∈ R, r.contains row col = false) ∧ (g.unitStart row col).width = 1 := by
  by_cases hfree : ∀ r ∈ R, r.contains row col = false
  · exact .inr ⟨hfree, h.width_free hr hc hfree⟩
  · push Not at hfree
    obtain ⟨r, hrR, hrc⟩ := hfree
    rw [ne_eq, Bool.not_eq_false] at hrc
    obtain rfl := hedge r hrR hrc
    exact .inl ⟨r, hrR, hrc, rfl, h.width_region hf hrR (CellRange.contains_iff.mp hrc).1⟩

/-- The next left edge stands right behind a unit. -/
theorem leftEdge_next (h : Layout g R) (hf : g.Fits) (hr : row < g.rows) (hc : col < g.cols)
    (hedge : LeftEdge R row col) : LeftEdge R row (col + (g.unitStart row col).width) := by
  intro s hs hsc
  obtain ⟨hsrow, hscol⟩ := CellRange.contains_iff.mp hsc
  by_contra hne
  rcases h.region_or_free hf hr hc hedge with ⟨r, hrR, hrc, rfl, hw⟩ | ⟨hfree, hw⟩
  · have hord : r.minCol ≤ r.maxCol := h.ordered r hrR .column
    rw [hw, CellRange.colCount] at hscol hne
    have hrow := (CellRange.contains_iff.mp hrc).1
    have hsc : s.contains row r.maxCol = true :=
      CellRange.contains_iff.mpr ⟨hsrow, by omega, by omega⟩
    have hrc : r.contains row r.maxCol = true := CellRange.contains_iff.mpr ⟨hrow, hord, le_rfl⟩
    obtain rfl := h.eq_of_contains hs hrR hsc hrc
    omega
  · rw [hw] at hscol hne
    have hc : s.contains row col = true := CellRange.contains_iff.mpr ⟨hsrow, by omega, by omega⟩
    rw [hfree s hs] at hc
    contradiction

theorem width_le (h : Layout g R) (hf : g.Fits) (hr : row < g.rows) (hc : col < g.cols)
    (hedge : LeftEdge R row col) : col + (g.unitStart row col).width ≤ g.cols := by
  rcases h.region_or_free hf hr hc hedge with ⟨r, hrR, -, rfl, hw⟩ | ⟨-, hw⟩
  · have hin : r.maxCol < g.cols := h.inside r hrR .column
    have hord : r.minCol ≤ r.maxCol := h.ordered r hrR .column
    rw [hw, CellRange.colCount]
    omega
  · rw [hw]
    exact hc

/-- No left edge lies inside a unit. -/
theorem not_leftEdge_within (h : Layout g R) (hf : g.Fits) (hr : row < g.rows) (hc : col < g.cols)
    (hedge : LeftEdge R row col) {c : Nat} (hlt : col < c)
    (hw : c < col + (g.unitStart row col).width) : ¬LeftEdge R row c := by
  intro hcedge
  rcases h.region_or_free hf hr hc hedge with ⟨r, hrR, hrc, rfl, hwidth⟩ | ⟨-, hwidth⟩
  · have hord : r.minCol ≤ r.maxCol := h.ordered r hrR .column
    rw [hwidth, CellRange.colCount] at hw
    have hrow := (CellRange.contains_iff.mp hrc).1
    have hmin := hcedge r hrR (CellRange.contains_iff.mpr ⟨hrow, hlt.le, by omega⟩)
    omega
  · omega

/-- At a left edge there is a unit to write, as wide as the step that the walk takes. -/
theorem exists_unit (h : Layout g R) (hf : g.Fits) (hr : row < g.rows) (hc : col < g.cols)
    (hedge : LeftEdge R row col) :
    ∃ u, (g.unitStart row col).unit? col = some u ∧ u.col = col ∧
      u.width = (g.unitStart row col).width := by
  rcases h.visible_or_continues hedge with hv | ⟨r, hrR, rfl, hrow⟩
  · rw [h.unitStart_visible hr hc hv]
    exact ⟨_, rfl, rfl, rfl⟩
  · rw [h.unitStart_continuation hf hrR hrow]
    exact ⟨_, rfl, rfl, rfl⟩

theorem unitStart_ne_outside (h : Layout g R) (hf : g.Fits) (hr : row < g.rows) (hc : col < g.cols)
    (hedge : LeftEdge R row col) : g.unitStart row col ≠ .outside := by
  obtain ⟨u, hu, -⟩ := h.exists_unit hf hr hc hedge
  intro hout
  rw [hout] at hu
  cases hu

end Layout

theorem unitStartsFrom_of_le (hc : g.cols ≤ col) : g.unitStartsFrom row col = [] := by
  rw [unitStartsFrom, if_neg hc.not_gt]

theorem Layout.unitStartsFrom_edge (h : Layout g R) (hf : g.Fits) (hr : row < g.rows)
    (hc : col < g.cols) (hedge : LeftEdge R row col) :
    g.unitStartsFrom row col = (col, g.unitStart row col) ::
      g.unitStartsFrom row (col + (g.unitStart row col).width) := by
  rw [unitStartsFrom, if_pos hc]
  simp only [h.unitStart_ne_outside hf hr hc hedge, if_false]

/-- Induction from left edge to left edge, from the end of the row. -/
theorem Layout.edge_induction (h : Layout g R) (hf : g.Fits) (hr : row < g.rows) {P : Nat → Prop}
    (hend : ∀ col, g.cols ≤ col → P col)
    (hstep : ∀ col, col < g.cols → LeftEdge R row col →
      P (col + (g.unitStart row col).width) → P col) :
    ∀ col, LeftEdge R row col → P col := by
  intro col hedge
  induction hn : g.cols - col using Nat.strong_induction_on generalizing col with
  | _ n ih =>
    by_cases hc : col < g.cols
    · have hpos := (g.unitStart row col).width_pos
      apply hstep col hc hedge
      exact ih _ (by omega) _ (h.leftEdge_next hf hr hc hedge) rfl
    · exact hend col (not_lt.mp hc)

/-- In a grid without regions every cell of a row is a unit of its own. -/
theorem Layout.unitStartsFrom_plain {n : Nat} (h : Layout g ∅) (hr : row < g.rows)
    (hn : col + n = g.cols) :
    g.unitStartsFrom row col =
      (List.range' col n).map fun col => (col, .visible (g.cellAt row col)) := by
  induction n generalizing col with
  | zero => rw [unitStartsFrom_of_le (by omega), List.range'_zero, List.map_nil]
  | succ n ih =>
    have hc : col < g.cols := by omega
    obtain ⟨hv, hspan⟩ := h.free row col fun r hr => absurd hr (Set.notMem_empty r)
    have hstart := h.unitStart_visible hr hc hv
    have hwidth : (g.unitStart row col).width = 1 :=
      h.width_free hr hc fun r hr => absurd hr (Set.notMem_empty r)
    rw [unitStartsFrom, if_pos hc]
    dsimp only
    rw [if_neg (by simp [hstart]), hwidth, ih (by omega), hstart, List.range'_succ, List.map_cons]

theorem Layout.rowUnits_plain (h : Layout g ∅) (hr : row < g.rows) :
    g.rowUnits row = (List.range g.cols).map fun col => .visible col (g.cellAt row col) := by
  rw [rowUnits, unitStarts, h.unitStartsFrom_plain hr (Nat.zero_add _), ← List.range_eq_range',
    List.filterMap_map, ← List.filterMap_eq_map]
  rfl

end LatexTable.Grid
