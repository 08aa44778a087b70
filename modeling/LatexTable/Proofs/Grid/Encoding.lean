import LatexTable.Grid.Validate
import LatexTable.Proofs.Grid.Layout
import Mathlib.Data.List.Nodup
/-!
What the cells of a grid have to satisfy so that they encode disjoint regions, in terms of places
and footprints alone, and that a grid with a layout satisfies it and passes `validate`.
-/
namespace LatexTable.Grid

/-- A visible cell stands at `p`, and its footprint contains the place `q`. -/
def Covers (g : Grid) (p q : Nat × Nat) : Prop :=
  (p.1 < g.rows ∧ p.2 < g.cols) ∧ (g.cellAt p.1 p.2).hidden = false ∧
    ((g.cellAt p.1 p.2).footprint p.1 p.2).contains q.1 q.2 = true

/-- The footprints of the visible cells partition the grid, and hidden cells are blank. -/
structure Encoded (g : Grid) : Prop where
  rows_pos : 1 ≤ g.rows
  cols_pos : 1 ≤ g.cols
  full : g.cells.size = g.rows * g.cols
  spans_pos : ∀ c ∈ g.cells, 1 ≤ c.rowSpan ∧ 1 ≤ c.colSpan
  covered_once : ∀ row col, row < g.rows → col < g.cols → ∃! p, g.Covers p (row, col)
  footprint_inside : ∀ row col, row < g.rows → col < g.cols →
    (g.cellAt row col).hidden = false →
      ((g.cellAt row col).footprint row col).maxRow < g.rows ∧
        ((g.cellAt row col).footprint row col).maxCol < g.cols
  hidden_shadow : ∀ c ∈ g.cells, c.hidden = true → c = .shadow

variable {g : Grid} {r : CellRange} {row col : Nat}

theorem places_nodup (g : Grid) : g.places.Nodup :=
  List.Nodup.product List.nodup_range List.nodup_range

theorem regions_nodup (g : Grid) : g.regions.Nodup := by
  apply List.Nodup.filterMap _ g.places_nodup
  rintro ⟨row, col⟩ ⟨row', col'⟩ r hr hr'
  simp only [Option.mem_def, Option.ite_none_right_eq_some, Option.some.injEq] at hr hr'
  obtain ⟨-, rfl⟩ := hr
  obtain ⟨-, hr'⟩ := hr'
  exact Prod.ext (congrArg CellRange.minRow hr').symm (congrArg CellRange.minCol hr').symm

/-- The regions are the footprints of the visible cells that span. -/
theorem mem_regions_iff : r ∈ g.regions ↔ (r.minRow < g.rows ∧ r.minCol < g.cols) ∧
    (g.cellAt r.minRow r.minCol).isMaster = true ∧
      (g.cellAt r.minRow r.minCol).footprint r.minRow r.minCol = r := by
  simp only [regions, List.mem_filterMap, Prod.exists, mem_places, Option.ite_none_right_eq_some,
    Option.some.injEq]
  constructor
  · rintro ⟨row, col, hin, hm, rfl⟩
    exact ⟨hin, hm, rfl⟩
  · rintro ⟨hin, hm, hr⟩
    exact ⟨r.minRow, r.minCol, hin, hm, hr⟩

section Faults

variable {regions : List CellRange} {c : Cell}

theorem cellFault?_eq_none_iff : cellFault? regions c row col = none ↔
    coverCount regions row col = (if c.hidden then 1 else 0) ∧ (c.hidden = true → c = .shadow) := by
  unfold cellFault?
  dsimp only
  split_ifs <;> simp_all

theorem fault?_eq_none_iff : g.fault? = none ↔
    g.cells.size = g.rows * g.cols ∧
      (∀ r ∈ g.regions, r.maxRow < g.rows ∧ r.maxCol < g.cols) ∧
        ∀ row col, row < g.rows → col < g.cols →
          cellFault? g.regions (g.cellAt row col) row col = none := by
  unfold fault?
  by_cases hsize : g.cells.size = g.rows * g.cols
  · rw [if_neg (not_not.mpr hsize), and_iff_right hsize]
    dsimp only
    split
    next r hfind =>
      have hr := List.mem_of_find?_eq_some hfind
      have hout := List.find?_some hfind
      simp only [Bool.or_eq_true, decide_eq_true_eq] at hout
      simp only [reduceCtorEq, false_iff, not_and]
      intro hinside
      have hlt := hinside r hr
      omega
    next hfind =>
      rw [List.find?_eq_none] at hfind
      rw [and_iff_right, List.findSome?_eq_none_iff]
      · exact ⟨fun h row col hr hc => h (row, col) (mem_places.mpr ⟨hr, hc⟩),
          fun h p hp => h p.1 p.2 (mem_places.mp hp).1 (mem_places.mp hp).2⟩
      · intro r hr
        simpa using hfind r hr
  · simp [hsize]

theorem validate_eq_ok : g.validate = .ok () ↔ g.fault? = none := by
  unfold validate
  split <;> simp_all

end Faults

namespace Layout

variable {R : Set CellRange}

theorem covers_owner (h : Layout g R) (hf : g.Fits) (hr : r ∈ R)
    (hc : r.contains row col = true) : g.Covers (r.minRow, r.minCol) (row, col) := by
  have hs := r.startsAt_first
  refine ⟨h.first_lt hr, (h.owner r hr _ _ hs).1, ?_⟩
  rwa [h.footprint_owner (h.indexed hf) hr hs]

theorem covers_self (h : Layout g R) (hf : g.Fits) (hr : row < g.rows) (hc : col < g.cols)
    (hfree : ∀ r ∈ R, r.contains row col = false) : g.Covers (row, col) (row, col) := by
  refine ⟨⟨hr, hc⟩, (h.free row col hfree).1, ?_⟩
  rw [h.footprint_free hf hr hc hfree]
  exact CellRange.contains_iff.mpr ⟨⟨le_rfl, le_rfl⟩, le_rfl, le_rfl⟩

/-- A visible cell covers a place as the owner of the region there, or stands there itself. -/
theorem eq_of_covers (h : Layout g R) (hf : g.Fits) {p : Nat × Nat} (hp : g.Covers p (row, col)) :
    (∃ r ∈ R, r.contains row col = true ∧ p = (r.minRow, r.minCol)) ∨
      (p = (row, col) ∧ ∀ r ∈ R, r.contains row col = false) := by
  obtain ⟨a, b⟩ := p
  obtain ⟨⟨ha, hb⟩, hv, hc⟩ := hp
  rcases owner_or_shadow_or_free R a b with ⟨r, hr, hs⟩ | hshadow | hfree
  · rw [h.footprint_owner (h.indexed hf) hr hs] at hc
    obtain ⟨rfl, rfl⟩ := CellRange.startsAt_iff.mp hs
    exact .inl ⟨r, hr, hc, rfl⟩
  · simp [h.hidden_iff.mpr hshadow] at hv
  · rw [h.footprint_free hf ha hb hfree, CellRange.contains_iff] at hc
    simp only [CellRange.single] at hc
    obtain rfl : a = row := le_antisymm hc.1.1 hc.1.2
    obtain rfl : b = col := le_antisymm hc.2.1 hc.2.2
    exact .inr ⟨rfl, hfree⟩

theorem existsUnique_covers (h : Layout g R) (hf : g.Fits) (hr : row < g.rows) (hc : col < g.cols) :
    ∃! p, g.Covers p (row, col) := by
  by_cases hfree : ∀ r ∈ R, r.contains row col = false
  · refine ⟨(row, col), h.covers_self hf hr hc hfree, fun p hp => ?_⟩
    rcases h.eq_of_covers hf hp with ⟨r, hrR, hrc, -⟩ | ⟨hp, -⟩
    · simp [hfree r hrR] at hrc
    · exact hp
  · push Not at hfree
    obtain ⟨r, hrR, hrc⟩ := hfree
    rw [ne_eq, Bool.not_eq_false] at hrc
    refine ⟨(r.minRow, r.minCol), h.covers_owner hf hrR hrc, fun p hp => ?_⟩
    rcases h.eq_of_covers hf hp with ⟨s, hsR, hsc, hp⟩ | ⟨-, hfree⟩
    · rw [hp, h.eq_of_contains hsR hrR hsc hrc]
    · simp [hfree r hrR] at hrc

theorem footprint_lt (h : Layout g R) (hf : g.Fits) (hr : row < g.rows) (hc : col < g.cols)
    (hv : (g.cellAt row col).hidden = false) :
    ((g.cellAt row col).footprint row col).maxRow < g.rows ∧
      ((g.cellAt row col).footprint row col).maxCol < g.cols := by
  rcases owner_or_shadow_or_free R row col with ⟨r, hrR, hs⟩ | hshadow | hfree
  · rw [h.footprint_owner (h.indexed hf) hrR hs]
    exact ⟨h.inside r hrR .row, h.inside r hrR .column⟩
  · simp [h.hidden_iff.mpr hshadow] at hv
  · rw [h.footprint_free hf hr hc hfree]
    exact ⟨hr, hc⟩

theorem encoded (h : Layout g R) (hf : g.Fits) : g.Encoded where
  rows_pos := h.pos .row
  cols_pos := h.pos .column
  full := h.full
  spans_pos := by
    intro c hc
    obtain ⟨row, col, -, -, rfl⟩ := h.full.exists_cellAt hc
    exact ⟨h.span_pos row col .row, h.span_pos row col .column⟩
  covered_once _ _ hr hc := h.existsUnique_covers hf hr hc
  footprint_inside _ _ hr hc hv := h.footprint_lt hf hr hc hv
  hidden_shadow := by
    intro c hc hh
    obtain ⟨row, col, -, -, rfl⟩ := h.full.exists_cellAt hc
    exact h.eq_shadow_of_hidden hh

theorem coverCount_eq (h : Layout g R) (hi : Indexed R) (row col : Nat) :
    coverCount g.regions row col = if (g.cellAt row col).hidden then 1 else 0 := by
  unfold coverCount
  split
  next hh =>
    obtain ⟨r, hr, hc, hs⟩ := h.hidden_iff.mp hh
    rw [← List.count_eq_one_of_mem g.regions_nodup ((h.mem_regions hi).mpr hr)]
    apply List.countP_congr
    intro s hsR
    rw [h.mem_regions hi] at hsR
    simp only [Bool.and_eq_true, Bool.not_eq_true', beq_iff_eq]
    constructor
    · rintro ⟨hsc, -⟩
      exact h.eq_of_contains hsR hr hsc hc
    · rintro rfl
      exact ⟨hc, hs⟩
  next hv =>
    rw [List.countP_eq_zero]
    intro r hr hc
    rw [h.mem_regions hi] at hr
    simp only [Bool.and_eq_true, Bool.not_eq_true'] at hc
    exact hv (h.hidden_iff.mpr ⟨r, hr, hc⟩)

theorem fault?_eq_none (h : Layout g R) (hi : Indexed R) : g.fault? = none := by
  refine fault?_eq_none_iff.mpr ⟨h.full, fun r hr => ?_, fun row col _ _ => ?_⟩
  · rw [h.mem_regions hi] at hr
    exact ⟨h.inside r hr .row, h.inside r hr .column⟩
  · exact cellFault?_eq_none_iff.mpr ⟨h.coverCount_eq hi row col, h.eq_shadow_of_hidden⟩

theorem validate (h : Layout g R) (hf : g.Fits) : g.validate = .ok () :=
  validate_eq_ok.mpr (h.fault?_eq_none (h.indexed hf))

end Layout
end LatexTable.Grid
