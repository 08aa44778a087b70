import LatexTable.Proofs.Grid.InPlace
import LatexTable.Proofs.Grid.Layout
/-!
Merging and splitting, on the regions: dissolving takes regions away, covering adds one where none
is left, and a merge does the one after the other.
-/
namespace LatexTable.Grid
open Result

variable {g : Grid} {R : Set CellRange} {r : CellRange} {row col : Nat} {gone : List CellRange}

theorem dissolve_full : (g.dissolve gone).Full := tabulate_full ..

@[simp] theorem lineCount_dissolve (axis : Axis) :
    (g.dissolve gone).lineCount axis = g.lineCount axis := by cases axis <;> rfl

theorem cover_full : (g.cover r).Full := tabulate_full ..

@[simp] theorem lineCount_cover (axis : Axis) :
    (g.cover r).lineCount axis = g.lineCount axis := by cases axis <;> rfl

theorem empty_visible : Cell.empty.hidden = false ∧ ∀ axis, Cell.empty.span axis = 1 :=
  ⟨rfl, fun axis => by cases axis <;> rfl⟩

theorem alone_visible (c : Cell) : c.alone.hidden = false ∧ ∀ axis, c.alone.span axis = 1 :=
  ⟨rfl, fun axis => by cases axis <;> rfl⟩

theorem dissolvedAt_of_not_contains (hord : ∀ r ∈ gone, r.Ordered)
    (hn : ∀ r ∈ gone, r.contains row col = false) :
    g.dissolvedAt gone row col = g.cellAt row col := by
  have hcontains : gone.any (·.contains row col) = false := by simpa using hn
  have hstarts : gone.any (·.startsAt row col) = false := by
    rw [List.any_eq_false]
    intro r hr hs
    have hc := CellRange.contains_of_startsAt (hord r hr) hs
    rw [hn r hr] at hc
    contradiction
  simp [dissolvedAt, hcontains, hstarts]

namespace Layout

theorem cellAt_dissolve (h : Layout g R) (hgone : ∀ r ∈ gone, r ∈ R) (row col : Nat) :
    (g.dissolve gone).cellAt row col = g.dissolvedAt gone row col := by
  by_cases hin : row < g.rows ∧ col < g.cols
  · exact cellAt_tabulate hin.1 hin.2
  · rw [cellAt_of_not_lt (g := g.dissolve gone) hin, dissolvedAt_of_not_contains,
      cellAt_of_not_lt hin]
    · exact fun r hr => h.ordered r (hgone r hr)
    · intro r hr
      by_contra hc
      exact hin (h.lt_of_contains (hgone r hr) (by simpa using hc))

/-- Dissolving some of the regions leaves the others. -/
theorem dissolve (h : Layout g R) (hgone : ∀ r ∈ gone, r ∈ R) :
    Layout (g.dissolve gone) {r ∈ R | r ∉ gone} := by
  have hord : ∀ r ∈ gone, r.Ordered := fun r hr => h.ordered r (hgone r hr)
  have hkeep {r : CellRange} {row col : Nat} (hr : r ∈ {r ∈ R | r ∉ gone})
      (hc : r.contains row col = true) :
      (g.dissolve gone).cellAt row col = g.cellAt row col := by
    rw [h.cellAt_dissolve hgone, dissolvedAt_of_not_contains hord]
    intro s hs
    by_contra hsc
    exact hr.2 (h.eq_of_contains hr.1 (hgone s hs) hc (by simpa using hsc) ▸ hs)
  constructor
  · exact dissolve_full
  · simpa using h.pos
  · exact fun r hr => h.ordered r hr.1
  · simpa using fun r hr _ => h.inside r hr
  · exact fun r hr => h.proper r hr.1
  · exact fun r hr s hs => h.disjoint r hr.1 s hs.1
  · intro r hr row col hs
    rw [hkeep hr (CellRange.contains_of_startsAt (h.ordered r hr.1) hs)]
    exact h.owner r hr.1 row col hs
  · intro r hr row col hc hs
    rw [hkeep hr hc]
    exact h.shadow r hr.1 row col hc hs
  · intro row col hfree
    rw [h.cellAt_dissolve hgone, dissolvedAt]
    split_ifs with hstarts hcontains
    · exact alone_visible _
    · exact empty_visible
    · apply h.free
      intro r hr
      by_cases hmem : r ∈ gone
      · simpa using List.any_eq_false.mp (by simpa using hcontains) r hmem
      · exact hfree r ⟨hr, hmem⟩

theorem cellAt_cover (hin : ∀ axis, r.last axis < g.lineCount axis) (hord : r.Ordered)
    (row col : Nat) :
    (g.cover r).cellAt row col =
      if r.startsAt row col then
        { g.cellAt row col with rowSpan := r.rowCount, colSpan := r.colCount, hidden := false }
      else if r.contains row col then .shadow
      else g.cellAt row col := by
  by_cases hlt : row < g.rows ∧ col < g.cols
  · exact cellAt_tabulate hlt.1 hlt.2
  · have hc : ¬r.contains row col = true := by
      intro hc
      obtain ⟨⟨-, a⟩, -, b⟩ := CellRange.contains_iff.mp hc
      exact hlt ⟨a.trans_lt (hin .row), b.trans_lt (hin .column)⟩
    have hs : ¬r.startsAt row col = true :=
      fun hs => hc (CellRange.contains_of_startsAt hord hs)
    rw [cellAt_of_not_lt (g := g.cover r) hlt, if_neg hs, if_neg hc, cellAt_of_not_lt hlt]

/-- Where no region is met, a rectangle of several cells can become a region. -/
theorem cover (h : Layout g R) (hord : r.Ordered) (hin : ∀ axis, r.last axis < g.lineCount axis)
    (hproper : r.isSingle = false) (hapart : ∀ s ∈ R, s.intersects r = false) :
    Layout (g.cover r) (insert r R) := by
  have hout {s : CellRange} {row col : Nat} (hs : s ∈ R) (hc : s.contains row col = true) :
      r.contains row col = false := by
    by_contra hrc
    have hmeet := CellRange.intersects_of_contains hc ((Bool.not_eq_false _).mp hrc)
    rw [hapart s hs] at hmeet
    contradiction
  have hkeep {row col : Nat} (hc : r.contains row col = false) :
      (g.cover r).cellAt row col = g.cellAt row col := by
    have hs : r.startsAt row col = false := by
      by_contra hs
      have hrc := CellRange.contains_of_startsAt hord ((Bool.not_eq_false _).mp hs)
      rw [hc] at hrc
      contradiction
    simp [cellAt_cover hin hord, hc, hs]
  constructor
  · exact cover_full
  · simpa using h.pos
  · rintro s (rfl | hs)
    · exact hord
    · exact h.ordered s hs
  · rintro s (rfl | hs)
    · simpa using hin
    · simpa using h.inside s hs
  · rintro s (rfl | hs)
    · exact hproper
    · exact h.proper s hs
  · rintro s (rfl | hs) t (rfl | ht) hst
    · rfl
    · rw [CellRange.intersects_comm, hapart t ht] at hst
      contradiction
    · rw [hapart s hs] at hst
      contradiction
    · exact h.disjoint s hs t ht hst
  · rintro s (rfl | hs) row col hstarts
    · rw [cellAt_cover hin hord, if_pos hstarts]
      exact ⟨rfl, fun axis => by cases axis <;> rfl⟩
    · rw [hkeep (hout hs (CellRange.contains_of_startsAt (h.ordered s hs) hstarts))]
      exact h.owner s hs row col hstarts
  · rintro s (rfl | hs) row col hc hstarts
    · simp [cellAt_cover hin hord, hstarts, hc]
    · rw [hkeep (hout hs hc)]
      exact h.shadow s hs row col hc hstarts
  · intro row col hfree
    rw [hkeep (hfree r (Set.mem_insert r R))]
    exact h.free row col fun s hs => hfree s (Set.mem_insert_of_mem r hs)

end Layout

theorem checkRange_eq_ok {r : CellRange} (hord : r.Ordered) :
    g.checkRange r = .ok () ↔ ∀ axis, r.last axis < g.lineCount axis := by
  have hr := hord .row
  have hc := hord .column
  rw [checkRange_eq_ok_iff, Axis.forall_iff .row]
  simp only [CellRange.first, CellRange.last, lineCount, Axis.other] at *
  omega

theorem merge_eq_ok_iff {g' : Grid} (hord : r.Ordered) :
    g.merge r = .ok g' ↔ (∀ axis, r.last axis < g.lineCount axis) ∧
      g' = if r.isSingle then g
        else (g.dissolve (g.regions.filter (·.intersects r))).cover r := by
  rw [← checkRange_eq_ok hord]
  rw [merge_eq, check_bind_eq_ok]
  cases r.isSingle <;> exact and_congr_right' pure_eq_ok

theorem split_eq_ok_iff {g' : Grid} {n : Nat} (hord : r.Ordered) :
    g.split r = .ok (g', n) ↔ (∀ axis, r.last axis < g.lineCount axis) ∧
      g' = g.dissolve (g.regions.filter fun s => r.contains s.minRow s.minCol) ∧
      n = (g.regions.filter fun s => r.contains s.minRow s.minCol).length := by
  rw [← checkRange_eq_ok hord]
  rw [split_eq, check_bind_eq_ok, pure_eq_ok, Prod.mk_inj]

theorem merge_size {g' : Grid} (hord : r.Ordered) (h : g.merge r = .ok g') :
    g'.rows = g.rows ∧ g'.cols = g.cols := by
  obtain ⟨-, rfl⟩ := (merge_eq_ok_iff hord).mp h
  split <;> exact ⟨rfl, rfl⟩

theorem split_size {g' : Grid} {n : Nat} (hord : r.Ordered) (h : g.split r = .ok (g', n)) :
    g'.rows = g.rows ∧ g'.cols = g.cols := by
  obtain ⟨-, rfl, -⟩ := (split_eq_ok_iff hord).mp h
  exact ⟨rfl, rfl⟩

namespace Layout

/-- A merge takes away the regions that the rectangle meets and adds the rectangle. -/
theorem merge (h : Layout g R) (hi : Indexed R) (hord : r.Ordered)
    (hin : ∀ axis, r.last axis < g.lineCount axis) (hproper : r.isSingle = false) :
    Layout ((g.dissolve (g.regions.filter (·.intersects r))).cover r)
      (insert r {s ∈ R | s.intersects r = false}) := by
  have hgone : ∀ s ∈ g.regions.filter (·.intersects r), s ∈ R := by
    intro s hs
    exact (h.mem_regions hi).mp (List.mem_filter.mp hs).1
  have hleft : {s ∈ R | s ∉ g.regions.filter (·.intersects r)} =
      {s ∈ R | s.intersects r = false} := by
    ext s
    simp +contextual [h.mem_regions hi]
  rw [← hleft]
  apply (h.dissolve hgone).cover hord (by simpa using hin) hproper
  rw [hleft]
  exact fun s hs => hs.2

/-- A split takes away the regions that start in the rectangle. -/
theorem split (h : Layout g R) (hi : Indexed R) :
    Layout (g.dissolve (g.regions.filter fun s => r.contains s.minRow s.minCol))
      {s ∈ R | r.contains s.minRow s.minCol = false} := by
  have hgone : ∀ s ∈ g.regions.filter fun s => r.contains s.minRow s.minCol, s ∈ R := by
    intro s hs
    exact (h.mem_regions hi).mp (List.mem_filter.mp hs).1
  have hleft : {s ∈ R | s ∉ g.regions.filter fun s => r.contains s.minRow s.minCol} =
      {s ∈ R | r.contains s.minRow s.minCol = false} := by
    ext s
    simp +contextual [h.mem_regions hi]
  rw [← hleft]
  exact h.dissolve hgone

end Layout
end LatexTable.Grid
