import LatexTable.Proofs.Grid.Layout
import LatexTable.Proofs.Text.Blank
import Mathlib.Data.List.Basic
/-!
Two grids with layouts: equal spans at a place mean the same region there, and the same regions on
grids of one size are listed in the same order.
-/
namespace LatexTable.Grid

variable {g g' : Grid} {R S : Set CellRange} {r s : CellRange} {row col : Nat}

/-- Two grids agree in size, in their regions, and in the texts of their visible cells. -/
structure Alike (g g' : Grid) (R S : Set CellRange) : Prop where
  rows : g.rows = g'.rows
  cols : g.cols = g'.cols
  regions : R = S
  texts : ∀ row < g.rows, ∀ col < g.cols, (g.cellAt row col).hidden = false →
    Text.trimmed (g.cellAt row col).text.toList = Text.trimmed (g'.cellAt row col).text.toList

namespace Layout

theorem eq_of_lineCount (hr : r.Ordered) (hs : s.Ordered)
    (hfirst : ∀ axis, r.first axis = s.first axis)
    (hcount : ∀ axis, r.lineCount axis = s.lineCount axis) : r = s := by
  apply CellRange.ext_axis
  intro axis
  have hf := hfirst axis
  have hc := hcount axis
  have ha := hr axis
  have hb := hs axis
  simp only [CellRange.lineCount_eq] at hc
  omega

/-- A visible cell with the spans of an owner owns the same region. -/
theorem mem_of_same_spans (h : Layout g R) (h' : Layout g' S) (hr : r ∈ R)
    (hv : (g'.cellAt r.minRow r.minCol).hidden = false)
    (hspan : ∀ axis, (g.cellAt r.minRow r.minCol).span axis =
      (g'.cellAt r.minRow r.minCol).span axis) : r ∈ S := by
  have hcount := (h.owner r hr _ _ r.startsAt_first).2
  rcases owner_or_shadow_or_free S r.minRow r.minCol with ⟨s, hs, hss⟩ | hshadow | hfree
  · obtain ⟨hrow, hcol⟩ := CellRange.startsAt_iff.mp hss
    have hfirst (axis : Axis) : r.first axis = s.first axis := by
      cases axis
      · exact hrow.symm
      · exact hcol.symm
    have hlines (axis : Axis) : r.lineCount axis = s.lineCount axis := by
      rw [← hcount axis, hspan axis, (h'.owner s hs _ _ hss).2 axis]
    rwa [eq_of_lineCount (h.ordered r hr) (h'.ordered s hs) hfirst hlines]
  · rw [h'.hidden_iff.mpr hshadow] at hv
    contradiction
  · obtain ⟨axis, hlt⟩ := h.exists_lt hr
    have hone := (h'.free _ _ hfree).2 axis
    rw [← hspan axis, hcount axis, CellRange.lineCount_eq] at hone
    omega

theorem hidden_eq_of_same (h : Layout g R) (h' : Layout g' R) :
    (g.cellAt row col).hidden = (g'.cellAt row col).hidden := by
  rw [Bool.eq_iff_iff, h.hidden_iff, h'.hidden_iff]

theorem regions_eq_of_same (h : Layout g R) (h' : Layout g' R) (hf : g.Fits) (hf' : g'.Fits)
    (hrows : g.rows = g'.rows) (hcols : g.cols = g'.cols) : g.regions = g'.regions := by
  have hplaces : g.places = g'.places := by rw [places, places, hrows, hcols]
  rw [regions, regions, hplaces]
  apply List.filterMap_congr
  rintro ⟨row, col⟩ -
  by_cases hm : (g.cellAt row col).isMaster = true
  · obtain ⟨r, hr, hs⟩ := h.isMaster_iff.mp hm
    have hm' : (g'.cellAt row col).isMaster = true := h'.isMaster_iff.mpr ⟨r, hr, hs⟩
    simp only [hm, hm', if_true, h.footprint_owner (h.indexed hf) hr hs,
      h'.footprint_owner (h'.indexed hf') hr hs]
  · have hm' : ¬(g'.cellAt row col).isMaster = true := by
      rwa [h'.isMaster_iff, ← h.isMaster_iff]
    simp [hm, hm']

end Layout
end LatexTable.Grid
