import LatexTable.Proofs.Grid.LineEdit
import LatexTable.Proofs.Grid.Reachable
/-!
Inserting and deleting a row in full: the regions of the new grid, and every cell of it by the cell
that it comes from. What is said here determines the new grid.
-/
namespace LatexTable
open Result

namespace CellRange

variable {r s : CellRange} {R : Set CellRange} {pos : Nat}

/-- A region after a row is inserted before `pos`: it grows where it has rows on both sides. -/
def withRow (pos : Nat) (r : CellRange) : CellRange :=
  if r.minRow < pos ∧ pos ≤ r.maxRow then { r with maxRow := r.maxRow + 1 }
  else if pos ≤ r.minRow then { r with minRow := r.minRow + 1, maxRow := r.maxRow + 1 }
  else r

/-- A region after the row `pos` is deleted, if more than one cell is left of it. -/
def withoutRow (pos : Nat) (r : CellRange) : Option CellRange :=
  if pos < r.minRow then some { r with minRow := r.minRow - 1, maxRow := r.maxRow - 1 }
  else if r.maxRow < pos then some r
  else
    let left : CellRange := { r with maxRow := r.maxRow - 1 }
    if r.minRow = r.maxRow || left.isSingle then none else some left

theorem withRow_eq (h : r.Ordered) : r.withRow pos = r.grown .row pos := by
  have hrow : r.minRow ≤ r.maxRow := h .row
  have hgrown : r.grown .row pos =
      { r with
        minRow := if r.minRow < pos then r.minRow else r.minRow + 1
        maxRow := if r.maxRow < pos then r.maxRow else r.maxRow + 1 } := rfl
  rw [hgrown, withRow]
  split_ifs <;> first | omega | rfl

/-- A region with the new row at one of its edges does not grow. -/
theorem rowCount_withRow_edge (hord : r.Ordered) (h : pos = r.minRow ∨ pos = r.maxRow + 1) :
    (r.withRow pos).rowCount = r.rowCount := by
  have hrow : r.minRow ≤ r.maxRow := hord .row
  simp only [withRow, rowCount]
  split_ifs <;> dsimp only <;> omega

theorem shrunk_row_eq : r.shrunk .row pos =
    { r with
      minRow := if r.minRow ≤ pos then r.minRow else r.minRow - 1
      maxRow := if r.maxRow < pos then r.maxRow else r.maxRow - 1 } := rfl

theorem withoutRow_eq_some_iff (hord : r.Ordered) (hproper : r.isSingle = false) :
    r.withoutRow pos = some s ↔
      (r.HasOtherLine .row pos ∧ (r.shrunk .row pos).isSingle = false) ∧
        r.shrunk .row pos = s := by
  have hrow : r.minRow ≤ r.maxRow := hord .row
  have hother : r.HasOtherLine .row pos ↔ (r.maxRow = pos → r.minRow < pos) := Iff.rfl
  rw [hother, withoutRow]
  split_ifs with hbelow habove
  · have hshrunk : r.shrunk .row pos =
        { r with minRow := r.minRow - 1, maxRow := r.maxRow - 1 } := by
      rw [shrunk_row_eq, if_neg hbelow.not_ge, if_neg (hbelow.trans_le hrow).not_gt]
    have hlines : r.minRow - 1 = r.maxRow - 1 ↔ r.minRow = r.maxRow := by omega
    have hsingle : (r.shrunk .row pos).isSingle = r.isSingle := by
      simp only [hshrunk, isSingle, hlines]
    have hleft : r.maxRow = pos → r.minRow < pos := by omega
    rw [Option.some.injEq, ← hshrunk, hsingle, and_iff_right ⟨hleft, hproper⟩]
  · have hshrunk : r.shrunk .row pos = r := by
      rw [shrunk_row_eq, if_pos (hrow.trans habove.le), if_pos habove]
    have hleft : r.maxRow = pos → r.minRow < pos := by omega
    rw [Option.some.injEq, hshrunk, and_iff_right ⟨hleft, hproper⟩]
  · have hshrunk : r.shrunk .row pos = { r with maxRow := r.maxRow - 1 } := by
      rw [shrunk_row_eq, if_pos (not_lt.mp hbelow), if_neg habove]
    have hleft : (r.maxRow = pos → r.minRow < pos) ↔ r.minRow ≠ r.maxRow := by omega
    rw [hshrunk, hleft]
    dsimp only
    split_ifs with hnone
    · simp only [Bool.or_eq_true, decide_eq_true_eq] at hnone
      rcases hnone with hone | hsingle
      · simp [hone]
      · simp [hsingle]
    · simp only [Bool.or_eq_true, decide_eq_true_eq, not_or, Bool.not_eq_true] at hnone
      rw [Option.some.injEq, and_iff_right hnone]

theorem mem_survivors_row (hord : ∀ r ∈ R, r.Ordered) (hproper : ∀ r ∈ R, r.isSingle = false) :
    s ∈ survivors .row pos R ↔ ∃ r ∈ R, r.withoutRow pos = some s := by
  constructor
  · rintro ⟨r, ⟨hr, hleft⟩, hs⟩
    exact ⟨r, hr, (withoutRow_eq_some_iff (hord r hr) (hproper r hr)).mpr ⟨hleft, hs⟩⟩
  · rintro ⟨r, hr, hs⟩
    obtain ⟨hleft, hs⟩ := (withoutRow_eq_some_iff (hord r hr) (hproper r hr)).mp hs
    exact ⟨r, ⟨hr, hleft⟩, hs⟩

end CellRange

namespace Grid

variable {g g' : Grid} {R : Set CellRange} {r : CellRange} {pos row col : Nat}

section Cells

variable {axis : Axis} {line offset : Nat}

namespace Layout

/-- Only the first cell of a region that grows changes. -/
theorem cellOn_inserted_shifted (h : Layout g R) (hi : Indexed R) (hp : pos ≤ g.lineCount axis)
    (hn : ∀ r ∈ R, r.first axis < pos → pos ≤ r.last axis → ¬r.startsOn axis line offset = true) :
    (g.inserted axis pos).cellOn axis (shifted pos line) offset = g.cellOn axis line offset := by
  by_cases hin : line < g.lineCount axis ∧ offset < g.lineCount axis.other
  · by_cases hl : line < pos
    · have hline : shifted pos line = line := if_pos hl
      rw [hline, cellOn_inserted (Nat.lt_succ_of_lt hin.1) hin.2, insertedCell_of_lt hl]
      intro r hr hs
      obtain ⟨hrR, hfirst, hlast⟩ := (h.mem_runningThrough hi).mp hr
      exact hn r hrR hfirst hlast hs
    · have hline : shifted pos line = line + 1 := if_neg hl
      have hlt : line + 1 < g.lineCount axis + 1 := Nat.succ_lt_succ hin.1
      rw [hline, cellOn_inserted hlt hin.2, insertedCell_of_gt (by omega), Nat.add_sub_cancel]
  · rw [cellOn_of_not_lt hin, cellOn_of_not_lt]
    simp only [lineCount_inserted, lineCount_other_inserted, shifted]
    split_ifs <;> omega

theorem cellOn_inserted_first (h : Layout g R) (hi : Indexed R) (hr : r ∈ R)
    (hrun : r.first axis < pos ∧ pos ≤ r.last axis) :
    (g.inserted axis pos).cellOn axis (r.first axis) (r.first axis.other) =
      (g.cellOn axis (r.first axis) (r.first axis.other)).withSpan axis (r.lineCount axis + 1) := by
  have hs : r.startsOn axis (r.first axis) (r.first axis.other) = true :=
    CellRange.startsOn_iff.mpr ⟨rfl, rfl⟩
  have hord := h.ordered r hr
  have ha := (hord axis).trans_lt (h.inside r hr axis)
  have ho := (hord axis.other).trans_lt (h.inside r hr axis.other)
  rw [cellOn_inserted (Nat.lt_succ_of_lt ha) ho,
    insertedCell_of_startsOn hrun.1 ((h.mem_runningThrough hi).mpr ⟨hr, hrun⟩) hs,
    (h.owner_on hr hs).2 axis]

/-- The cell that follows the first one of a region is covered. -/
theorem shadow_behind_first (h : Layout g R) (hr : r ∈ R) (hfirst : r.first axis = pos)
    (hl : pos < r.last axis) : g.cellOn axis (pos + 1) (r.first axis.other) = .shadow := by
  have hs : r.startsOn axis pos (r.first axis.other) = true :=
    CellRange.startsOn_iff.mpr ⟨hfirst, rfl⟩
  apply h.shadow_on hr (CellRange.containsOn_next (h.ordered r hr) hs hl)
  rw [CellRange.startsOn_iff]
  omega

theorem cellOn_deleted_heir (h : Layout g R) (hi : Indexed R) (hr : r ∈ R)
    (hfirst : r.first axis = pos) (hl : pos < r.last axis) :
    (g.deleted axis pos).cellOn axis pos (r.first axis.other) = g.heir axis r .shadow := by
  have hs : r.startsOn axis pos (r.first axis.other) = true :=
    CellRange.startsOn_iff.mpr ⟨hfirst, rfl⟩
  have ha := h.inside r hr axis
  have ho := (h.ordered r hr axis.other).trans_lt (h.inside r hr axis.other)
  have hline : shifted pos pos = pos + 1 := if_neg (lt_irrefl pos)
  rw [cellOn_deleted (by omega) ho, hline, h.settledCell_heir hi hr hs hl,
    h.shadow_behind_first hr hfirst hl]

/-- The cell after a deleted line is no heir to a region that starts elsewhere. -/
theorem settledCell_of_no_heir (h : Layout g R) (hi : Indexed R)
    (hn : ∀ r ∈ R, r.first axis = pos → pos < r.last axis →
      ¬(line = pos ∧ offset = r.first axis.other)) :
    g.settledCell axis pos (g.meeting axis pos) (shifted pos line) offset =
      if (g.meeting axis pos).any
          fun r => r.first axis < pos && r.startsOn axis (shifted pos line) offset then
        (g.cellOn axis (shifted pos line) offset).withSpan axis
          ((g.cellOn axis (shifted pos line) offset).span axis - 1)
      else g.cellOn axis (shifted pos line) offset := by
  refine h.settledCell_of_not_heir hi fun r hr hnext hs hl => ?_
  have hline : line = pos := by unfold shifted at hnext; split_ifs at hnext <;> omega
  obtain ⟨hfirst, hother⟩ := CellRange.startsOn_iff.mp hs
  exact hn r hr hfirst hl ⟨hline, hother.symm⟩

theorem cellOn_deleted_first (h : Layout g R) (hi : Indexed R) (hr : r ∈ R)
    (hrun : r.first axis < pos ∧ pos ≤ r.last axis) :
    (g.deleted axis pos).cellOn axis (r.first axis) (r.first axis.other) =
      (g.cellOn axis (r.first axis) (r.first axis.other)).withSpan axis (r.lineCount axis - 1) := by
  have hs : r.startsOn axis (r.first axis) (r.first axis.other) = true :=
    CellRange.startsOn_iff.mpr ⟨rfl, rfl⟩
  have ha := h.inside r hr axis
  have ho := (h.ordered r hr axis.other).trans_lt (h.inside r hr axis.other)
  have hline : shifted pos (r.first axis) = r.first axis := if_pos hrun.1
  have hany : ((g.meeting axis pos).any fun s =>
      s.first axis < pos && s.startsOn axis (r.first axis) (r.first axis.other)) = true :=
    List.any_eq_true.mpr ⟨r, (h.mem_meeting hi).mpr ⟨hr, hrun.1.le, hrun.2⟩, by simp [hs, hrun.1]⟩
  rw [cellOn_deleted (by omega) ho, h.settledCell_of_no_heir hi (by omega), hline, if_pos hany,
    (h.owner_on hr hs).2 axis]

/-- All other cells are what they were. -/
theorem cellOn_deleted_other (h : Layout g R) (hi : Indexed R) (hp : pos < g.lineCount axis)
    (hheir : ∀ r ∈ R, r.first axis = pos → pos < r.last axis →
      ¬(line = pos ∧ offset = r.first axis.other))
    (hfirst : ∀ r ∈ R, r.first axis < pos → pos ≤ r.last axis →
      ¬r.startsOn axis line offset = true) :
    (g.deleted axis pos).cellOn axis line offset = g.cellOn axis (shifted pos line) offset := by
  by_cases hin : line < g.lineCount axis - 1 ∧ offset < g.lineCount axis.other
  · rw [cellOn_deleted hin.1 hin.2, h.settledCell_of_no_heir hi hheir, if_neg]
    intro hany
    obtain ⟨r, hr, hs⟩ := List.any_eq_true.mp hany
    obtain ⟨hrR, hmeets⟩ := (h.mem_meeting hi).mp hr
    simp only [Bool.and_eq_true, decide_eq_true_eq, CellRange.startsOn_iff] at hs
    obtain ⟨habove, hline, hother⟩ := hs
    apply hfirst r hrR habove hmeets.2
    rw [CellRange.startsOn_iff]
    unfold shifted at hline
    split_ifs at hline <;> omega
  · rw [cellOn_of_not_lt (by simpa using hin), cellOn_of_not_lt]
    unfold shifted
    split_ifs <;> omega

end Layout

/-- The new line is covered where a region runs through it. -/
theorem cellOn_inserted_new (hp : pos ≤ g.lineCount axis) (ho : offset < g.lineCount axis.other) :
    (g.inserted axis pos).cellOn axis pos offset =
      if ∃ r ∈ g.regions, (r.first axis < pos ∧ pos ≤ r.last axis) ∧
        r.first axis.other ≤ offset ∧ offset ≤ r.last axis.other then .shadow
      else .empty := by
  rw [cellOn_inserted (Nat.lt_succ_of_le hp) ho]
  by_cases hcovered : ∃ r ∈ g.regions, (r.first axis < pos ∧ pos ≤ r.last axis) ∧
      r.first axis.other ≤ offset ∧ offset ≤ r.last axis.other
  · obtain ⟨r, hr, hrun, hline⟩ := hcovered
    rw [if_pos ⟨r, hr, hrun, hline⟩]
    apply insertedCell_new_of_hasLine (List.mem_filter.mpr ⟨hr, by simpa using hrun⟩)
    exact CellRange.hasLine_iff.mpr hline
  · rw [if_neg hcovered]
    apply insertedCell_new_of_not
    intro r hr hline
    obtain ⟨hrg, hrun⟩ := List.mem_filter.mp hr
    exact hcovered ⟨r, hrg, by simpa using hrun, CellRange.hasLine_iff.mp hline⟩

end Cells

/-- What inserting a row before `pos` makes of a grid. Old rows are found at their shifted place. -/
structure RowInserted (g : Grid) (pos : Nat) (g' : Grid) : Prop where
  full : g'.Full
  rows : g'.rows = g.rows + 1
  cols : g'.cols = g.cols
  regions : ∀ s, s ∈ g'.regions ↔ ∃ r ∈ g.regions, s = r.withRow pos
  /-- A region that has the new row at an edge only is moved or left, and does not grow. -/
  edges : ∀ r ∈ g.regions, pos = r.minRow ∨ pos = r.maxRow + 1 →
    r.withRow pos ∈ g'.regions ∧ (r.withRow pos).rowCount = r.rowCount
  kept : ∀ row col,
    (g'.cellAt (shifted pos row) col).hidden = (g.cellAt row col).hidden ∧
      (g'.cellAt (shifted pos row) col).content = (g.cellAt row col).content
  /-- The first cell of a region that has grown. -/
  grown : ∀ r ∈ g.regions, r.minRow < pos → pos ≤ r.maxRow →
    g'.cellAt r.minRow r.minCol =
      { g.cellAt r.minRow r.minCol with rowSpan := r.rowCount + 1 }
  other : ∀ row col,
    (∀ r ∈ g.regions, r.minRow < pos → pos ≤ r.maxRow → r.startsAt row col = false) →
      g'.cellAt (shifted pos row) col = g.cellAt row col
  /-- The new row is covered where a region has grown. -/
  fresh : ∀ col < g.cols, g'.cellAt pos col =
    if ∃ r ∈ g.regions, (r.minRow < pos ∧ pos ≤ r.maxRow) ∧ r.minCol ≤ col ∧ col ≤ r.maxCol then
      .shadow
    else .empty

/-- What deleting the row `pos` makes of a grid. The cells of the new row `row` come from the old
row `shifted pos row`. -/
structure RowDeleted (g : Grid) (pos : Nat) (g' : Grid) : Prop where
  full : g'.Full
  rows : g'.rows = g.rows - 1
  cols : g'.cols = g.cols
  regions : ∀ s, s ∈ g'.regions ↔ ∃ r ∈ g.regions, r.withoutRow pos = some s
  visible : ∀ row col, (g.cellAt (shifted pos row) col).hidden = false →
    (g'.cellAt row col).hidden = false ∧
      (g'.cellAt row col).content = (g.cellAt (shifted pos row) col).content
  /-- A region that has lost its first row is taken over by a blank cell in its style. -/
  heir : ∀ r ∈ g.regions, r.minRow = pos → pos < r.maxRow →
    g'.cellAt pos r.minCol =
      { rowSpan := r.rowCount - 1, colSpan := r.colCount, style := (g.cellAt pos r.minCol).style }
  /-- The first cell of a region that has lost a later row. -/
  shrunk : ∀ r ∈ g.regions, r.minRow < pos → pos ≤ r.maxRow →
    g'.cellAt r.minRow r.minCol =
      { g.cellAt r.minRow r.minCol with rowSpan := r.rowCount - 1 }
  other : ∀ row col,
    (∀ r ∈ g.regions, r.minRow = pos → pos < r.maxRow → ¬(row = pos ∧ col = r.minCol)) →
    (∀ r ∈ g.regions, r.minRow < pos → pos ≤ r.maxRow → r.startsAt row col = false) →
      g'.cellAt row col = g.cellAt (shifted pos row) col

namespace Layout

theorem rowInserted (h : Layout g {r | r ∈ g.regions}) (hf : g.Fits) (hp : pos ≤ g.rows) :
    RowInserted g pos (g.inserted .row pos) := by
  have hi := h.indexed hf
  have hlayout := h.inserted hi .row pos
  have hi' : Indexed (CellRange.grown .row pos '' {r | r ∈ g.regions}) := by
    apply hlayout.indexed_of_le
    have hrows := h.lineCount_le hf .row
    have hcols := h.lineCount_le hf .column
    rw [Axis.forall_iff .row, lineCount_inserted, lineCount_other_inserted]
    exact ⟨Nat.succ_le_succ hrows, hcols.trans (Nat.le_succ _)⟩
  have hregions (s : CellRange) :
      s ∈ (g.inserted .row pos).regions ↔ ∃ r ∈ g.regions, s = r.withRow pos := by
    rw [hlayout.mem_regions hi']
    constructor
    · rintro ⟨r, hr, rfl⟩
      exact ⟨r, hr, (CellRange.withRow_eq (h.ordered r hr)).symm⟩
    · rintro ⟨r, hr, rfl⟩
      exact ⟨r, hr, (CellRange.withRow_eq (h.ordered r hr)).symm⟩
  have hgrown : ∀ r ∈ g.regions, r.minRow < pos → pos ≤ r.maxRow →
      (g.inserted .row pos).cellAt r.minRow r.minCol =
        { g.cellAt r.minRow r.minCol with rowSpan := r.rowCount + 1 } :=
    fun r hr hfirst hlast => h.cellOn_inserted_first hi hr ⟨hfirst, hlast⟩
  have hother : ∀ row col,
      (∀ r ∈ g.regions, r.minRow < pos → pos ≤ r.maxRow → r.startsAt row col = false) →
        (g.inserted .row pos).cellAt (shifted pos row) col = g.cellAt row col := by
    intro row col hn
    refine h.cellOn_inserted_shifted hi hp fun r hr hfirst hlast hs => ?_
    have hstarts : r.startsAt row col = true :=
      CellRange.startsAt_iff.mpr (CellRange.startsOn_iff.mp hs)
    rw [hn r hr hfirst hlast] at hstarts
    contradiction
  constructor
  case full => exact inserted_full
  case rows => rfl
  case cols => rfl
  case regions => exact hregions
  case edges =>
    intro r hr hedge
    exact ⟨(hregions _).mpr ⟨r, hr, rfl⟩, CellRange.rowCount_withRow_edge (h.ordered r hr) hedge⟩
  case kept =>
    intro row col
    by_cases hn : ∀ r ∈ g.regions, r.minRow < pos → pos ≤ r.maxRow → r.startsAt row col = false
    · rw [hother row col hn]
      exact ⟨rfl, rfl⟩
    · push Not at hn
      obtain ⟨r, hr, hfirst, hlast, hs⟩ := hn
      obtain ⟨rfl, rfl⟩ := CellRange.startsAt_iff.mp ((Bool.not_eq_false _).mp hs)
      have hrow : shifted pos r.minRow = r.minRow := if_pos hfirst
      rw [hrow, hgrown r hr hfirst hlast]
      exact ⟨rfl, rfl⟩
  case grown => exact hgrown
  case other => exact hother
  case fresh => exact fun col hcol => cellOn_inserted_new hp hcol

theorem rowDeleted (h : Layout g {r | r ∈ g.regions}) (hf : g.Fits) (hp : pos < g.rows)
    (hrows : 2 ≤ g.rows) : RowDeleted g pos (g.deleted .row pos) := by
  have hi := h.indexed hf
  have hlayout : Layout (g.deleted .row pos) (CellRange.survivors .row pos {r | r ∈ g.regions}) :=
    h.deleted hi hp (by have h' : g.lineCount .row = g.rows := rfl; omega)
  have hi' : Indexed (CellRange.survivors .row pos {r | r ∈ g.regions}) := by
    apply hlayout.indexed_of_le
    have hrow := h.lineCount_le hf .row
    have hcol := h.lineCount_le hf .column
    rw [Axis.forall_iff .row, lineCount_deleted, lineCount_other_deleted]
    exact ⟨(Nat.sub_le _ _).trans (hrow.trans (Nat.le_succ _)), hcol.trans (Nat.le_succ _)⟩
  have hheir : ∀ r ∈ g.regions, r.minRow = pos → pos < r.maxRow →
      (g.deleted .row pos).cellAt pos r.minCol =
        { rowSpan := r.rowCount - 1, colSpan := r.colCount,
          style := (g.cellAt pos r.minCol).style } := by
    rintro r hr rfl hlast
    exact h.cellOn_deleted_heir hi hr rfl hlast
  have hshrunk : ∀ r ∈ g.regions, r.minRow < pos → pos ≤ r.maxRow →
      (g.deleted .row pos).cellAt r.minRow r.minCol =
        { g.cellAt r.minRow r.minCol with rowSpan := r.rowCount - 1 } :=
    fun r hr hfirst hlast => h.cellOn_deleted_first hi hr ⟨hfirst, hlast⟩
  have hother : ∀ row col,
      (∀ r ∈ g.regions, r.minRow = pos → pos < r.maxRow → ¬(row = pos ∧ col = r.minCol)) →
      (∀ r ∈ g.regions, r.minRow < pos → pos ≤ r.maxRow → r.startsAt row col = false) →
        (g.deleted .row pos).cellAt row col = g.cellAt (shifted pos row) col := by
    intro row col hheirs hfirsts
    refine h.cellOn_deleted_other hi hp hheirs fun r hr hfirst hlast hs => ?_
    have hstarts : r.startsAt row col = true :=
      CellRange.startsAt_iff.mpr (CellRange.startsOn_iff.mp hs)
    rw [hfirsts r hr hfirst hlast] at hstarts
    contradiction
  constructor
  case full => exact deleted_full
  case rows => rfl
  case cols => rfl
  case regions =>
    intro s
    rw [hlayout.mem_regions hi']
    exact CellRange.mem_survivors_row h.ordered h.proper
  case visible =>
    intro row col hv
    by_cases hfirsts : ∀ r ∈ g.regions, r.minRow < pos → pos ≤ r.maxRow →
        r.startsAt row col = false
    · rw [hother row col ?_ hfirsts]
      · exact ⟨hv, rfl⟩
      · -- an heir has been hidden before
        rintro r hr hfirst hlast ⟨rfl, rfl⟩
        have hline : shifted row row = row + 1 := if_neg (lt_irrefl row)
        have hcell : g.cellAt (row + 1) r.minCol = .shadow :=
          h.shadow_behind_first hr (show r.first .row = row from hfirst) hlast
        rw [hline, hcell] at hv
        contradiction
    · push Not at hfirsts
      obtain ⟨r, hr, hfirst, hlast, hs⟩ := hfirsts
      obtain ⟨rfl, rfl⟩ := CellRange.startsAt_iff.mp ((Bool.not_eq_false _).mp hs)
      have hline : shifted pos r.minRow = r.minRow := if_pos hfirst
      rw [hline] at hv ⊢
      rw [hshrunk r hr hfirst hlast]
      exact ⟨hv, rfl⟩
  case heir => exact hheir
  case shrunk => exact hshrunk
  case other => exact hother

end Layout

/-- There is only one grid that a row can be inserted into another one to give. -/
theorem RowInserted.unique {g'' : Grid} (h : RowInserted g pos g') (h' : RowInserted g pos g'') :
    g' = g'' := by
  refine h.full.ext h'.full (h.rows.trans h'.rows.symm) (h.cols.trans h'.cols.symm)
    fun row col hrow hcol => ?_
  rw [h.rows] at hrow
  rw [h.cols] at hcol
  by_cases hnew : row = pos
  · rw [hnew, h.fresh col hcol, h'.fresh col hcol]
  · obtain ⟨old, rfl⟩ : ∃ old, row = shifted pos old := by
      rcases Nat.lt_or_gt_of_ne hnew with hlt | hgt
      · exact ⟨row, (if_pos hlt).symm⟩
      · refine ⟨row - 1, ?_⟩
        unfold shifted
        split_ifs <;> omega
    by_cases hn : ∀ r ∈ g.regions, r.minRow < pos → pos ≤ r.maxRow → r.startsAt old col = false
    · rw [h.other old col hn, h'.other old col hn]
    · push Not at hn
      obtain ⟨r, hr, hfirst, hlast, hs⟩ := hn
      obtain ⟨rfl, rfl⟩ := CellRange.startsAt_iff.mp ((Bool.not_eq_false _).mp hs)
      have hline : shifted pos r.minRow = r.minRow := if_pos hfirst
      rw [hline, h.grown r hr hfirst hlast, h'.grown r hr hfirst hlast]

theorem RowDeleted.unique {g'' : Grid} (h : RowDeleted g pos g') (h' : RowDeleted g pos g'') :
    g' = g'' := by
  refine h.full.ext h'.full (h.rows.trans h'.rows.symm) (h.cols.trans h'.cols.symm)
    fun row col _ _ => ?_
  by_cases hheirs : ∀ r ∈ g.regions, r.minRow = pos → pos < r.maxRow →
      ¬(row = pos ∧ col = r.minCol)
  · by_cases hfirsts : ∀ r ∈ g.regions, r.minRow < pos → pos ≤ r.maxRow →
        r.startsAt row col = false
    · rw [h.other row col hheirs hfirsts, h'.other row col hheirs hfirsts]
    · push Not at hfirsts
      obtain ⟨r, hr, hfirst, hlast, hs⟩ := hfirsts
      obtain ⟨rfl, rfl⟩ := CellRange.startsAt_iff.mp ((Bool.not_eq_false _).mp hs)
      rw [h.shrunk r hr hfirst hlast, h'.shrunk r hr hfirst hlast]
  · push Not at hheirs
    obtain ⟨r, hr, hfirst, hlast, rfl, rfl⟩ := hheirs
    rw [h.heir r hr hfirst hlast, h'.heir r hr hfirst hlast]

/-- Inserting a row into a reachable grid succeeds, and what it makes of the regions and the cells
determines the new grid. -/
theorem reachable_row_inserted (h : Reachable g) (hp : pos ≤ g.rows) :
    ∃ g', g.insertRow pos = .ok g' ∧ RowInserted g pos g' ∧
      ∀ other, RowInserted g pos other → other = g' := by
  have hins := h.layout.rowInserted h.fits hp
  exact ⟨_, insertLine_eq_ok_iff.mpr ⟨hp, rfl⟩, hins, fun other ho => ho.unique hins⟩

theorem reachable_row_inserted_beside :
    let g := ((Grid.blank 3 3).after (.merge 0 0 1 0)).after (.merge 1 2 2 2)
    ∃ g', g.insertRow 1 = .ok g' ∧ RowInserted g 1 g' ∧
      ∀ other, RowInserted g 1 other → other = g' := by
  refine reachable_row_inserted (.edit _ (.edit _ (.blank 3 3 ?_) ?_) ?_) ?_ <;> decide

/-- Deleting a row of a reachable grid succeeds while another row is left, and what it makes of the
regions and the cells determines the new grid. -/
theorem reachable_row_deleted (h : Reachable g) (hp : pos < g.rows) (hrows : 2 ≤ g.rows) :
    ∃ g', g.deleteRow pos = .ok g' ∧ RowDeleted g pos g' ∧
      ∀ other, RowDeleted g pos other → other = g' := by
  have hdel := h.layout.rowDeleted h.fits hp hrows
  have hcols : 0 < g.lineCount Axis.row.other := h.layout.pos .column
  have hone : g.lineCount .row ≠ 1 := by
    have hcount : g.lineCount .row = g.rows := rfl
    omega
  exact ⟨_, (deleteLine_eq_ok_iff hcols).mpr ⟨⟨hp, hone⟩, rfl⟩, hdel,
    fun other ho => ho.unique hdel⟩

theorem reachable_row_deleted_heirs :
    let g := (((Grid.blank 3 4).after (.merge 1 0 2 1)).after (.merge 0 2 1 2)).after
      (.setText 1 0 "head")
    ∃ g', g.deleteRow 1 = .ok g' ∧ RowDeleted g 1 g' ∧
      ∀ other, RowDeleted g 1 other → other = g' := by
  refine reachable_row_deleted (.edit _ (.edit _ (.edit _ (.blank 3 4 ?_) ?_) ?_) ?_) ?_ ?_ <;>
    decide

end Grid
end LatexTable
