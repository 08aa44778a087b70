import LatexTable.Proofs.Grid.Range
import LatexTable.Proofs.Grid.View
/-!
Grids on which given regions are laid out. `Layout` is the invariant of all operations: every
operation is described by what it does to the set of regions.
-/
namespace LatexTable.Grid

/-- The number of cells is an index. -/
def Fits (g : Grid) : Prop := g.rows * g.cols ≤ maxIndex

instance (g : Grid) : Decidable g.Fits := inferInstanceAs (Decidable (g.rows * g.cols ≤ maxIndex))

/-- Every region ends at an index. -/
def Indexed (R : Set CellRange) : Prop := ∀ r ∈ R, ∀ axis, r.last axis ≤ maxIndex

theorem indexed_empty : Indexed ∅ := fun r hr => absurd hr (Set.notMem_empty r)

/-- The regions are rectangles of two cells or more inside the grid, no two of them share a cell,
and the cells tell exactly these regions. -/
structure Layout (g : Grid) (R : Set CellRange) : Prop where
  full : g.Full
  pos : ∀ axis, 0 < g.lineCount axis
  ordered : ∀ r ∈ R, r.Ordered
  inside : ∀ r ∈ R, ∀ axis, r.last axis < g.lineCount axis
  proper : ∀ r ∈ R, r.isSingle = false
  disjoint : ∀ r ∈ R, ∀ s ∈ R, r.intersects s = true → r = s
  owner : ∀ r ∈ R, ∀ row col, r.startsAt row col = true →
    (g.cellAt row col).hidden = false ∧ ∀ axis, (g.cellAt row col).span axis = r.lineCount axis
  shadow : ∀ r ∈ R, ∀ row col, r.contains row col = true → r.startsAt row col = false →
    g.cellAt row col = .shadow
  free : ∀ row col, (∀ r ∈ R, r.contains row col = false) →
    (g.cellAt row col).hidden = false ∧ ∀ axis, (g.cellAt row col).span axis = 1

namespace Layout

variable {g : Grid} {R : Set CellRange} {r s : CellRange} {row col : Nat}

theorem eq_of_contains (h : Layout g R) (hr : r ∈ R) (hs : s ∈ R)
    (hrc : r.contains row col = true) (hsc : s.contains row col = true) : r = s :=
  h.disjoint r hr s hs (CellRange.intersects_of_contains hrc hsc)

theorem lt_of_contains (h : Layout g R) (hr : r ∈ R) (hc : r.contains row col = true) :
    row < g.rows ∧ col < g.cols := by
  obtain ⟨⟨-, a⟩, -, b⟩ := CellRange.contains_iff.mp hc
  exact ⟨a.trans_lt (h.inside r hr .row), b.trans_lt (h.inside r hr .column)⟩

/-- The first cell of a region lies in the grid. -/
theorem first_lt (h : Layout g R) (hr : r ∈ R) : r.minRow < g.rows ∧ r.minCol < g.cols :=
  h.lt_of_contains hr (h.ordered r hr).contains_first

/-- A cell owns a region, or is the shadow of one, or stands free. -/
theorem owner_or_shadow_or_free (R : Set CellRange) (row col : Nat) :
    (∃ r ∈ R, r.startsAt row col = true) ∨
      (∃ r ∈ R, r.contains row col = true ∧ r.startsAt row col = false) ∨
      ∀ r ∈ R, r.contains row col = false := by
  by_cases hfree : ∀ r ∈ R, r.contains row col = false
  · exact .inr (.inr hfree)
  · push Not at hfree
    obtain ⟨r, hr, hc⟩ := hfree
    rw [ne_eq, Bool.not_eq_false] at hc
    cases hs : r.startsAt row col with
    | true => exact .inl ⟨r, hr, hs⟩
    | false => exact .inr (.inl ⟨r, hr, hc, hs⟩)

theorem hidden_iff (h : Layout g R) :
    (g.cellAt row col).hidden = true ↔
      ∃ r ∈ R, r.contains row col = true ∧ r.startsAt row col = false := by
  constructor
  · intro hh
    rcases owner_or_shadow_or_free R row col with ⟨r, hr, hs⟩ | hshadow | hfree
    · simp [(h.owner r hr row col hs).1] at hh
    · exact hshadow
    · simp [(h.free row col hfree).1] at hh
  · rintro ⟨r, hr, hc, hs⟩
    rw [h.shadow r hr row col hc hs]
    rfl

theorem eq_shadow_of_hidden (h : Layout g R) (hh : (g.cellAt row col).hidden = true) :
    g.cellAt row col = .shadow := by
  obtain ⟨r, hr, hc, hs⟩ := h.hidden_iff.mp hh
  exact h.shadow r hr row col hc hs

theorem span_pos (h : Layout g R) (row col : Nat) (axis : Axis) :
    0 < (g.cellAt row col).span axis := by
  rcases owner_or_shadow_or_free R row col with ⟨r, hr, hs⟩ | ⟨r, hr, hc, hs⟩ | hfree
  · rw [(h.owner r hr row col hs).2 axis, CellRange.lineCount_eq]
    exact Nat.succ_pos _
  · rw [h.shadow r hr row col hc hs]
    cases axis <;> exact Nat.one_pos
  · rw [(h.free row col hfree).2 axis]
    exact Nat.one_pos

/-- A region spans more than one line along some axis. -/
theorem exists_lt (h : Layout g R) (hr : r ∈ R) : ∃ axis, r.first axis < r.last axis := by
  by_contra hn
  push Not at hn
  have hs : r.isSingle = true :=
    CellRange.isSingle_iff.mpr fun axis => le_antisymm (h.ordered r hr axis) (hn axis)
  simp [h.proper r hr] at hs

theorem isSpanning_iff {c : Cell} : c.isSpanning = true ↔ ∃ axis, 1 < c.span axis := by
  constructor
  · intro hc
    simp only [Cell.isSpanning, Bool.or_eq_true, decide_eq_true_eq] at hc
    exact hc.elim (fun hr => ⟨.row, hr⟩) fun hcol => ⟨.column, hcol⟩
  · rintro ⟨axis, hc⟩
    cases axis <;> simp only [Cell.span] at hc <;> simp [Cell.isSpanning, hc]

theorem isMaster_iff (h : Layout g R) :
    (g.cellAt row col).isMaster = true ↔ ∃ r ∈ R, r.startsAt row col = true := by
  simp only [Cell.isMaster, Bool.and_eq_true, Bool.not_eq_true', isSpanning_iff]
  constructor
  · rintro ⟨hv, axis, hspan⟩
    rcases owner_or_shadow_or_free R row col with hown | hshadow | hfree
    · exact hown
    · simp [h.hidden_iff.mpr hshadow] at hv
    · simp [(h.free row col hfree).2 axis] at hspan
  · rintro ⟨r, hr, hs⟩
    obtain ⟨hv, hspan⟩ := h.owner r hr row col hs
    obtain ⟨axis, hlt⟩ := h.exists_lt hr
    refine ⟨hv, axis, ?_⟩
    rw [hspan, CellRange.lineCount_eq]
    omega

theorem lineCount_le (h : Layout g R) (hf : g.Fits) (axis : Axis) :
    g.lineCount axis ≤ maxIndex := by
  have hr := h.pos .row
  have hc := h.pos .column
  cases axis
  · exact (Nat.le_mul_of_pos_right _ hc).trans hf
  · exact (Nat.le_mul_of_pos_left _ hr).trans hf

theorem indexed_of_le (h : Layout g R) (hmax : ∀ axis, g.lineCount axis ≤ maxIndex + 1) :
    Indexed R := fun r hr axis => Nat.le_of_lt_succ ((h.inside r hr axis).trans_le (hmax axis))

/-- The regions of a grid that fits end at indices. -/
theorem indexed (h : Layout g R) (hf : g.Fits) : Indexed R :=
  h.indexed_of_le fun axis => (h.lineCount_le hf axis).trans (Nat.le_succ _)

/-- The footprint of an owner is its region: nothing goes beyond the largest index. -/
theorem footprint_owner (h : Layout g R) (hi : Indexed R) (hr : r ∈ R)
    (hs : r.startsAt row col = true) : (g.cellAt row col).footprint row col = r := by
  obtain ⟨-, hspan⟩ := h.owner r hr row col hs
  have hir := hi r hr .row
  have hic := hi r hr .column
  have hor := h.ordered r hr .row
  have hoc := h.ordered r hr .column
  obtain ⟨rfl, rfl⟩ := CellRange.startsAt_iff.mp hs
  apply CellRange.ext_axis
  simp only [Cell.span, CellRange.lineCount_eq, Axis.forall_iff .row, Axis.other] at *
  simp only [Cell.footprint, CellRange.ofSpan, CellRange.first, CellRange.last, true_and] at *
  omega

theorem footprint_free (h : Layout g R) (hf : g.Fits) (hr : row < g.rows) (hc : col < g.cols)
    (hfree : ∀ r ∈ R, r.contains row col = false) :
    (g.cellAt row col).footprint row col = .single row col := by
  have hspan := (h.free row col hfree).2
  have hrow := hspan .row
  have hcol := hspan .column
  have hrows := h.lineCount_le hf .row
  have hcols := h.lineCount_le hf .column
  simp only [Cell.span, lineCount] at *
  simp only [Cell.footprint, CellRange.ofSpan, CellRange.single, CellRange.mk.injEq, true_and]
  omega

/-- The regions that the grid lists are the regions that are laid out. -/
theorem mem_regions (h : Layout g R) (hi : Indexed R) : r ∈ g.regions ↔ r ∈ R := by
  simp only [regions, List.mem_filterMap, Prod.exists, mem_places, Option.ite_none_right_eq_some,
    Option.some.injEq]
  constructor
  · rintro ⟨row, col, -, hm, rfl⟩
    obtain ⟨r, hr, hs⟩ := h.isMaster_iff.mp hm
    rwa [h.footprint_owner hi hr hs]
  · intro hr
    have hs := r.startsAt_first
    exact ⟨r.minRow, r.minCol, h.first_lt hr, h.isMaster_iff.mpr ⟨r, hr, hs⟩,
      h.footprint_owner hi hr hs⟩

end Layout
end LatexTable.Grid
