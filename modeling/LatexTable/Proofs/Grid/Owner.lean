import LatexTable.Proofs.Grid.Lines
/-!
The owner of a place is the first cell of the region there, or the place itself. A region has one
style, that of its owner, and it is the style of every place in it.
-/
namespace LatexTable

theorem Cell.ext_span {c d : Cell} (htext : c.text = d.text) (hspan : ∀ a, c.span a = d.span a)
    (hhidden : c.hidden = d.hidden) (hstyle : c.style = d.style) : c = d := by
  have hrow : c.rowSpan = d.rowSpan := hspan .row
  have hcol : c.colSpan = d.colSpan := hspan .column
  cases c
  simp_all

namespace Grid

variable {g g' : Grid} {R : Set CellRange} {r : CellRange} {row col line offset : Nat} {axis : Axis}

/-- The style of a place: that of the visible cell that covers it. -/
def styleAt (g : Grid) (row col : Nat) : CellStyle :=
  (g.cellAt (g.ownerAt row col).1 (g.ownerAt row col).2).style

def styleOn (g : Grid) (axis : Axis) (line offset : Nat) : CellStyle :=
  g.styleAt (axis.place line offset).1 (axis.place line offset).2

theorem ownerOf_of_lt (hr : row < g.rows) (hc : col < g.cols) :
    g.ownerOf row col = .ok (g.ownerAt row col) := by
  rw [ownerOf, check_eq_ok_iff.mpr ⟨hr, hc⟩]
  rfl

theorem ownerAt_of_visible (hv : (g.cellAt row col).hidden = false) :
    g.ownerAt row col = (row, col) := by simp [ownerAt, hv]

theorem styleAt_of_visible (hv : (g.cellAt row col).hidden = false) :
    g.styleAt row col = (g.cellAt row col).style := by
  rw [styleAt, ownerAt_of_visible hv]

theorem styleOn_of_visible (hv : (g.cellOn axis line offset).hidden = false) :
    g.styleOn axis line offset = (g.cellOn axis line offset).style := styleAt_of_visible hv

/-- A place is seen from both axes. -/
theorem cellOn_other : g.cellOn axis.other offset line = g.cellOn axis line offset := by
  cases axis <;> rfl

theorem styleOn_other : g.styleOn axis.other offset line = g.styleOn axis line offset := by
  cases axis <;> rfl

namespace Layout

/-- The owner of a place in a region is the first cell of the region. -/
theorem ownerAt_of_contains (h : Layout g R) (hi : Indexed R) (hr : r ∈ R)
    (hc : r.contains row col = true) : g.ownerAt row col = (r.minRow, r.minCol) := by
  cases hs : r.startsAt row col with
  | true =>
    obtain ⟨rfl, rfl⟩ := CellRange.startsAt_iff.mp hs
    exact ownerAt_of_visible (h.owner r hr _ _ hs).1
  | false =>
    have hhidden : (g.cellAt row col).hidden = true := h.hidden_iff.mpr ⟨r, hr, hc, hs⟩
    have hstarts := r.startsAt_first
    obtain ⟨⟨hrow, -⟩, hcol, -⟩ := CellRange.contains_iff.mp hc
    unfold ownerAt
    rw [if_pos hhidden, find?_eq_some_of_unique (a := (r.minRow, r.minCol)), Option.getD_some]
    · simp only [placesBack, List.mem_flatMap, List.mem_reverse, List.mem_range, List.mem_map,
        Prod.mk.injEq, exists_eq_right_right]
      exact ⟨by omega, by omega⟩
    · simp only [Bool.and_eq_true]
      exact ⟨h.isMaster_iff.mpr ⟨r, hr, hstarts⟩, by rwa [h.footprint_owner hi hr hstarts]⟩
    · rintro ⟨a, b⟩ - hp
      simp only [Bool.and_eq_true] at hp
      obtain ⟨s, hsR, hss⟩ := h.isMaster_iff.mp hp.1
      rw [h.footprint_owner hi hsR hss] at hp
      obtain ⟨rfl, rfl⟩ := CellRange.startsAt_iff.mp hss
      rw [h.eq_of_contains hsR hr hp.2 hc]

/-- All places of a region have the style of its first cell. -/
theorem styleOn_of_containsOn (h : Layout g R) (hi : Indexed R) (hr : r ∈ R)
    (hc : r.ContainsOn axis line offset) :
    g.styleOn axis line offset =
      (g.cellOn axis (r.first axis) (r.first axis.other)).style := by
  rw [styleOn, styleAt, h.ownerAt_of_contains hi hr (CellRange.contains_place.mpr hc)]
  cases axis <;> rfl

/-- A place outside all regions has a style of its own. -/
theorem styleOn_of_free (h : Layout g R) (hfree : ∀ r ∈ R, ¬r.ContainsOn axis line offset) :
    g.styleOn axis line offset = (g.cellOn axis line offset).style :=
  styleOn_of_visible (h.free_on hfree).1

/-- The regions, the texts and the styles of all places determine a grid. -/
theorem ext (h : Layout g R) (h' : Layout g' R) (axis : Axis)
    (hlines : ∀ a, g.lineCount a = g'.lineCount a)
    (htext : ∀ line offset, (g.cellOn axis line offset).text = (g'.cellOn axis line offset).text)
    (hstyle : ∀ line offset, g.styleOn axis line offset = g'.styleOn axis line offset) :
    g = g' := by
  refine h.full.ext h'.full (hlines .row) (hlines .column) fun row col _ _ => ?_
  have hvisible (hv : (g.cellAt row col).hidden = false) (hv' : (g'.cellAt row col).hidden = false)
      (hspan : ∀ a, (g.cellAt row col).span a = (g'.cellAt row col).span a) :
      g.cellAt row col = g'.cellAt row col := by
    obtain ⟨line, offset, rfl, rfl⟩ := axis.exists_place row col
    have hs := hstyle line offset
    rw [styleOn_of_visible hv, styleOn_of_visible hv'] at hs
    exact Cell.ext_span (htext line offset) hspan (hv.trans hv'.symm) hs
  rcases owner_or_shadow_or_free R row col with ⟨r, hr, hs⟩ | ⟨r, hr, hc, hs⟩ | hfree
  · obtain ⟨hv, hspan⟩ := h.owner r hr row col hs
    obtain ⟨hv', hspan'⟩ := h'.owner r hr row col hs
    exact hvisible hv hv' fun a => (hspan a).trans (hspan' a).symm
  · rw [h.shadow r hr row col hc hs, h'.shadow r hr row col hc hs]
  · obtain ⟨hv, hspan⟩ := h.free row col hfree
    obtain ⟨hv', hspan'⟩ := h'.free row col hfree
    exact hvisible hv hv' fun a => (hspan a).trans (hspan' a).symm

end Layout
end Grid
end LatexTable
