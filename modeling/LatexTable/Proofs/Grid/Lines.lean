import LatexTable.Proofs.Grid.Layout
/-!
Layouts along an axis: what holds of the rows of a grid and what holds of its columns is stated and
proved once, by lines and offsets.
-/
namespace LatexTable

namespace Cell

variable {c : Cell} {axis : Axis} {n : Nat}

@[simp] theorem hidden_withSpan : (c.withSpan axis n).hidden = c.hidden := by cases axis <;> rfl

@[simp] theorem span_withSpan : (c.withSpan axis n).span axis = n := by cases axis <;> rfl

@[simp] theorem span_other_withSpan : (c.withSpan axis n).span axis.other = c.span axis.other := by
  cases axis <;> rfl

end Cell

namespace CellRange

variable {r s : CellRange} {axis : Axis} {pos line offset : Nat}

/-- The place on a line at an offset lies in the rectangle. -/
def ContainsOn (r : CellRange) (axis : Axis) (line offset : Nat) : Prop :=
  (r.first axis ≤ line ∧ line ≤ r.last axis) ∧
    (r.first axis.other ≤ offset ∧ offset ≤ r.last axis.other)

theorem startsOn_iff :
    r.startsOn axis line offset = true ↔ r.first axis = line ∧ r.first axis.other = offset := by
  simp [startsOn]

theorem containsOn_of_startsOn (hr : r.Ordered) (h : r.startsOn axis line offset = true) :
    r.ContainsOn axis line offset := by
  obtain ⟨rfl, rfl⟩ := startsOn_iff.mp h
  exact ⟨⟨le_rfl, hr axis⟩, le_rfl, hr axis.other⟩

end CellRange

namespace Grid

variable {g : Grid} {R : Set CellRange} {r s : CellRange} {axis : Axis}
  {pos line offset : Nat}

namespace Layout

theorem owner_on (h : Layout g R) (hr : r ∈ R) (hs : r.startsOn axis line offset = true) :
    (g.cellOn axis line offset).hidden = false ∧
      ∀ a, (g.cellOn axis line offset).span a = r.lineCount a :=
  h.owner r hr _ _ (CellRange.startsAt_place.mpr (CellRange.startsOn_iff.mp hs))

theorem shadow_on (h : Layout g R) (hr : r ∈ R) (hc : r.ContainsOn axis line offset)
    (hs : ¬r.startsOn axis line offset = true) : g.cellOn axis line offset = .shadow := by
  apply h.shadow r hr _ _ (CellRange.contains_place.mpr hc)
  rw [← Bool.not_eq_true, CellRange.startsAt_place]
  exact fun hp => hs (CellRange.startsOn_iff.mpr hp)

theorem free_on (h : Layout g R) (hfree : ∀ r ∈ R, ¬r.ContainsOn axis line offset) :
    (g.cellOn axis line offset).hidden = false ∧
      ∀ a, (g.cellOn axis line offset).span a = 1 := by
  refine h.free (axis.place line offset).1 (axis.place line offset).2 fun r hr => ?_
  rw [← Bool.not_eq_true, CellRange.contains_place]
  exact hfree r hr

theorem eq_on (h : Layout g R) (hr : r ∈ R) (hs : s ∈ R) (hrc : r.ContainsOn axis line offset)
    (hsc : s.ContainsOn axis line offset) : r = s :=
  h.eq_of_contains hr hs (CellRange.contains_place.mpr hrc) (CellRange.contains_place.mpr hsc)

theorem eq_of_startsOn (h : Layout g R) (hr : r ∈ R) (hs : s ∈ R)
    (hrc : r.ContainsOn axis line offset) (hss : s.startsOn axis line offset = true) : r = s :=
  h.eq_on hr hs hrc (CellRange.containsOn_of_startsOn (h.ordered s hs) hss)

/-- A layout can be checked by lines and offsets along any axis. -/
theorem of_axis (axis : Axis) (full : g.Full) (pos : ∀ axis, 0 < g.lineCount axis)
    (ordered : ∀ r ∈ R, r.Ordered) (inside : ∀ r ∈ R, ∀ axis, r.last axis < g.lineCount axis)
    (proper : ∀ r ∈ R, r.isSingle = false)
    (disjoint : ∀ r ∈ R, ∀ s ∈ R, ∀ line offset, r.ContainsOn axis line offset →
      s.ContainsOn axis line offset → r = s)
    (owner : ∀ r ∈ R, ∀ line offset, r.startsOn axis line offset = true →
      (g.cellOn axis line offset).hidden = false ∧
        ∀ a, (g.cellOn axis line offset).span a = r.lineCount a)
    (shadow : ∀ r ∈ R, ∀ line offset, r.ContainsOn axis line offset →
      ¬r.startsOn axis line offset = true → g.cellOn axis line offset = .shadow)
    (free : ∀ line offset, (∀ r ∈ R, ¬r.ContainsOn axis line offset) →
      (g.cellOn axis line offset).hidden = false ∧
        ∀ a, (g.cellOn axis line offset).span a = 1) : Layout g R where
  full := full
  pos := pos
  ordered := ordered
  inside := inside
  proper := proper
  disjoint := by
    intro r hr s hs hrs
    obtain ⟨row, col, hrc, hsc⟩ :=
      CellRange.exists_contains_of_intersects (ordered r hr) (ordered s hs) hrs
    obtain ⟨line, offset, rfl, rfl⟩ := axis.exists_place row col
    exact disjoint r hr s hs line offset (CellRange.contains_place.mp hrc)
      (CellRange.contains_place.mp hsc)
  owner := by
    intro r hr row col hs
    obtain ⟨line, offset, rfl, rfl⟩ := axis.exists_place row col
    exact owner r hr line offset (CellRange.startsOn_iff.mpr (CellRange.startsAt_place.mp hs))
  shadow := by
    intro r hr row col hc hs
    obtain ⟨line, offset, rfl, rfl⟩ := axis.exists_place row col
    apply shadow r hr line offset (CellRange.contains_place.mp hc)
    rw [← Bool.not_eq_true, CellRange.startsAt_place] at hs
    exact fun hp => hs (CellRange.startsOn_iff.mp hp)
  free := by
    intro row col hfree
    obtain ⟨line, offset, rfl, rfl⟩ := axis.exists_place row col
    apply free line offset
    intro r hr hc
    simpa [CellRange.contains_place.mpr hc] using hfree r hr

end Layout
end Grid
end LatexTable
