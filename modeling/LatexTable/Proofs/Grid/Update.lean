import LatexTable.Proofs.Grid.InPlace
import LatexTable.Proofs.Grid.Layout
/-!
New grids, and updates of text and style. An update keeps what the layout reads of a cell: whether
it is hidden, its spans, and the blank content of a shadow.
-/
namespace LatexTable
open Result

namespace Cell

/-- Cells that a layout does not tell apart. -/
def SameShape (c d : Cell) : Prop :=
  c.hidden = d.hidden ∧ (∀ axis, c.span axis = d.span axis) ∧ (d.hidden = true → c = d)

theorem SameShape.refl (c : Cell) : c.SameShape c := ⟨rfl, fun _ => rfl, fun _ => rfl⟩

theorem update_sameShape (c : Cell) (f : CellContent → CellContent) : (c.update f).SameShape c := by
  unfold update
  split
  next => exact .refl c
  next hv => exact ⟨rfl, fun axis => by cases axis <;> rfl, fun hh => absurd hh hv⟩

end Cell

namespace Grid

variable {g g' : Grid} {R : Set CellRange} {r : CellRange} {row col n : Nat}
  {f : Nat → Nat → Cell}

namespace Layout

/-- Cells of unchanged shape keep the layout. -/
theorem of_sameShape (h : Layout g R) (hf : ∀ row col, (f row col).SameShape (g.cellAt row col)) :
    Layout (tabulate g.rows g.cols f) R := by
  have hlines (axis : Axis) : (tabulate g.rows g.cols f).lineCount axis = g.lineCount axis := by
    cases axis <;> rfl
  have hcell (row col : Nat) :
      ((tabulate g.rows g.cols f).cellAt row col).SameShape (g.cellAt row col) := by
    by_cases hin : row < g.rows ∧ col < g.cols
    · rw [cellAt_tabulate hin.1 hin.2]
      exact hf row col
    · rw [cellAt_of_not_lt (g := tabulate g.rows g.cols f) hin, cellAt_of_not_lt hin]
      exact .refl _
  constructor
  · exact tabulate_full ..
  · simpa only [hlines] using h.pos
  · exact h.ordered
  · simpa only [hlines] using h.inside
  · exact h.proper
  · exact h.disjoint
  · intro r hr row col hs
    obtain ⟨hhidden, hspan, -⟩ := hcell row col
    obtain ⟨hv, hcount⟩ := h.owner r hr row col hs
    exact ⟨hhidden.trans hv, fun axis => (hspan axis).trans (hcount axis)⟩
  · intro r hr row col hc hs
    have hshadow := h.shadow r hr row col hc hs
    rw [(hcell row col).2.2 (by rw [hshadow]; rfl), hshadow]
  · intro row col hfree
    obtain ⟨hhidden, hspan, -⟩ := hcell row col
    obtain ⟨hv, hone⟩ := h.free row col hfree
    exact ⟨hhidden.trans hv, fun axis => (hspan axis).trans (hone axis)⟩

/-- A grid of visible cells without spans has no regions. -/
theorem of_visible {rows cols : Nat} (hr : 0 < rows) (hc : 0 < cols)
    (hf : ∀ row col, (f row col).hidden = false ∧ ∀ axis, (f row col).span axis = 1) :
    Layout (tabulate rows cols f) ∅ := by
  constructor
  case full => exact tabulate_full ..
  case pos =>
    intro axis
    cases axis
    · exact hr
    · exact hc
  case free =>
    intro row col _
    by_cases hin : row < rows ∧ col < cols
    · rw [cellAt_tabulate hin.1 hin.2]
      exact hf row col
    · rw [cellAt_of_not_lt (g := tabulate rows cols f) hin]
      exact ⟨rfl, fun axis => by cases axis <;> rfl⟩
  all_goals exact fun r hr => absurd hr (Set.notMem_empty r)

theorem blank (rows cols : Nat) : Layout (Grid.blank rows cols) ∅ := by
  apply of_visible (by omega) (by omega)
  exact fun _ _ => ⟨rfl, fun axis => by cases axis <;> rfl⟩

theorem ofTextsIn {rows cols : Nat} (hr : 0 < rows) (hc : 0 < cols) (texts : List (List String)) :
    Layout (Grid.ofTextsIn rows cols texts) ∅ := by
  unfold Grid.ofTextsIn
  apply of_visible hr hc
  exact fun _ _ => ⟨rfl, fun axis => by cases axis <;> rfl⟩

theorem ofTexts (texts : List (List String)) : Layout (Grid.ofTexts texts) ∅ :=
  ofTextsIn (by omega) (by omega) texts

end Layout

theorem updateEach_eq_ok {u : Nat → Nat → CellContent → CellContent}
    (h : g.updateEach r u = .ok (g', n)) :
    g' = tabulate g.rows g.cols fun row col =>
      if r.contains row col then (g.cellAt row col).update (u row col) else g.cellAt row col := by
  simp only [updateEach_eq, check_bind_eq_ok, pure_eq_ok, Prod.mk.injEq] at h
  obtain ⟨-, rfl, -⟩ := h
  rfl

theorem updateCell_eq_ok {u : CellContent → CellContent} {visible : Bool}
    (h : g.updateCell row col u = .ok (g', visible)) :
    g' = g ∨ g' = tabulate g.rows g.cols fun r c =>
      if r = row && c = col then (g.cellAt r c).update u else g.cellAt r c := by
  simp only [updateCell_eq, check_bind_eq_ok] at h
  obtain ⟨-, h⟩ := h
  split at h
  · exact .inl (congrArg Prod.fst (pure_eq_ok.mp h))
  · exact .inr (congrArg Prod.fst (pure_eq_ok.mp h))

theorem applyStyle_eq_ok {command : StyleCommand}
    (h : g.applyStyle r row col command = .ok (g', n)) :
    ∃ u, g.updateEach r u = .ok (g', n) := by
  simp only [applyStyle_eq, bind_eq_ok] at h
  obtain ⟨focused, -, h⟩ := h
  exact ⟨_, h⟩

theorem updateEach_size {u : Nat → Nat → CellContent → CellContent}
    (h : g.updateEach r u = .ok (g', n)) : g'.rows = g.rows ∧ g'.cols = g.cols := by
  rw [updateEach_eq_ok h]
  exact ⟨rfl, rfl⟩

theorem updateCell_size {u : CellContent → CellContent} {visible : Bool}
    (h : g.updateCell row col u = .ok (g', visible)) : g'.rows = g.rows ∧ g'.cols = g.cols := by
  rcases updateCell_eq_ok h with rfl | rfl <;> exact ⟨rfl, rfl⟩

theorem exists_updateEach (u : Nat → Nat → CellContent → CellContent)
    (h : g.checkRange r = .ok ()) : ∃ g' n, g.updateEach r u = .ok (g', n) := by
  exact ⟨_, _, by rw [updateEach_eq, h]; rfl⟩

theorem exists_applyStyle (command : StyleCommand) (hin : row < g.rows ∧ col < g.cols)
    (h : g.checkRange r = .ok ()) : ∃ g' n, g.applyStyle r row col command = .ok (g', n) := by
  have hcell : g.cell row col = .ok (g.cellAt row col) := by
    rw [cell, check_eq_ok_iff.mpr hin]
    rfl
  simp only [applyStyle_eq, bind_eq_ok, hcell]
  obtain ⟨g', n, hu⟩ := exists_updateEach _ h
  exact ⟨g', n, _, rfl, hu⟩

namespace Layout

theorem updateEach (h : Layout g R) {u : Nat → Nat → CellContent → CellContent}
    (hu : g.updateEach r u = .ok (g', n)) : Layout g' R := by
  rw [updateEach_eq_ok hu]
  apply h.of_sameShape
  intro row col
  split
  · exact Cell.update_sameShape ..
  · exact .refl _

theorem updateCell (h : Layout g R) {u : CellContent → CellContent} {visible : Bool}
    (hu : g.updateCell row col u = .ok (g', visible)) : Layout g' R := by
  rcases updateCell_eq_ok hu with rfl | rfl
  · exact h
  · apply h.of_sameShape
    intro row col
    split
    · exact Cell.update_sameShape ..
    · exact .refl _

theorem applyStyle (h : Layout g R) {command : StyleCommand}
    (hu : g.applyStyle r row col command = .ok (g', n)) : Layout g' R := by
  obtain ⟨u, hu⟩ := applyStyle_eq_ok hu
  exact h.updateEach hu

end Layout
end Grid
end LatexTable
