import LatexTable.Proofs.Grid.InPlace
import LatexTable.Proofs.Grid.Lines
/-!
Inserting a line, on the regions: every line goes to its shifted place, and a region reaches from
where its first line goes to where its last one goes.
-/
namespace LatexTable

namespace CellRange

variable {r : CellRange} {axis : Axis} {pos line offset : Nat}

/-- The rectangle after a line is inserted before `pos`. -/
def grown (axis : Axis) (pos : Nat) (r : CellRange) : CellRange :=
  r.withLines axis (Grid.shifted pos (r.first axis)) (Grid.shifted pos (r.last axis))

/-- An inserted line belongs to the rectangles that run through it. -/
theorem containsOn_grown :
    (r.grown axis pos).ContainsOn axis line offset ↔
      (line < pos ∧ r.ContainsOn axis line offset) ∨
      (line = pos ∧ (r.first axis < pos ∧ pos ≤ r.last axis) ∧
        r.first axis.other ≤ offset ∧ offset ≤ r.last axis.other) ∨
      (pos < line ∧ r.ContainsOn axis (line - 1) offset) := by
  simp only [ContainsOn, grown, first_withLines, last_withLines, first_other_withLines,
    last_other_withLines, Grid.shifted]
  split_ifs <;> omega

theorem containsOn_of_grown (h : (r.grown axis pos).ContainsOn axis line offset) :
    r.ContainsOn axis (if line ≤ pos then line else line - 1) offset := by
  rcases containsOn_grown.mp h with ⟨hl, hc⟩ | ⟨rfl, hrun, ho⟩ | ⟨hl, hc⟩
  · rwa [if_pos hl.le]
  · rw [if_pos le_rfl]
    exact ⟨⟨hrun.1.le, hrun.2⟩, ho⟩
  · rwa [if_neg hl.not_ge]

theorem startsOn_grown :
    (r.grown axis pos).startsOn axis line offset = true ↔
      (line < pos ∧ r.startsOn axis line offset = true) ∨
      (pos < line ∧ r.startsOn axis (line - 1) offset = true) := by
  simp only [startsOn_iff, grown, first_withLines, first_other_withLines, Grid.shifted]
  split_ifs <;> omega

theorem Ordered.grown (h : r.Ordered) : (r.grown axis pos).Ordered := by
  unfold Ordered
  rw [Axis.forall_iff axis]
  have ha := h axis
  have ho := h axis.other
  simp only [CellRange.grown, first_withLines, last_withLines, first_other_withLines,
    last_other_withLines, Grid.shifted]
  split_ifs <;> omega

theorem isSingle_grown : (r.grown axis pos).isSingle = r.isSingle := by
  rw [Bool.eq_iff_iff, isSingle_iff, isSingle_iff, Axis.forall_iff axis, Axis.forall_iff axis]
  simp only [CellRange.grown, first_withLines, last_withLines, first_other_withLines,
    last_other_withLines, Grid.shifted]
  split_ifs <;> omega

@[simp] theorem lineCount_other_grown :
    (r.grown axis pos).lineCount axis.other = r.lineCount axis.other := by
  simp [lineCount_eq, grown]

theorem lineCount_grown_running (h : r.first axis < pos ∧ pos ≤ r.last axis) :
    (r.grown axis pos).lineCount axis = r.lineCount axis + 1 := by
  simp only [lineCount_eq, grown, first_withLines, last_withLines, Grid.shifted]
  split_ifs <;> omega

theorem lineCount_grown_apart (hr : r.Ordered) (h : ¬(r.first axis < pos ∧ pos ≤ r.last axis)) :
    (r.grown axis pos).lineCount axis = r.lineCount axis := by
  have ho := hr axis
  simp only [lineCount_eq, grown, first_withLines, last_withLines, Grid.shifted]
  split_ifs <;> omega

end CellRange

namespace Grid

variable {g : Grid} {R : Set CellRange} {r : CellRange} {axis : Axis} {pos line offset : Nat}

section InsertedCell

variable {crossing : List CellRange}

theorem insertedCell_of_lt (hl : line < pos)
    (hn : ∀ r ∈ crossing, ¬r.startsOn axis line offset = true) :
    g.insertedCell axis pos crossing line offset = g.cellOn axis line offset := by
  have hany : crossing.any (·.startsOn axis line offset) = false := by simpa using hn
  simp [insertedCell, hl, hany]

theorem insertedCell_of_startsOn (hl : line < pos) (hr : r ∈ crossing)
    (hs : r.startsOn axis line offset = true) :
    g.insertedCell axis pos crossing line offset =
      (g.cellOn axis line offset).withSpan axis ((g.cellOn axis line offset).span axis + 1) := by
  have hany : crossing.any (·.startsOn axis line offset) = true := List.any_eq_true.mpr ⟨r, hr, hs⟩
  simp [insertedCell, hl, hany]

theorem insertedCell_of_gt (hl : pos < line) :
    g.insertedCell axis pos crossing line offset = g.cellOn axis (line - 1) offset := by
  simp [insertedCell, hl.not_gt, hl.ne']

theorem insertedCell_new_of_hasLine (hr : r ∈ crossing) (ho : r.hasLine axis.other offset = true) :
    g.insertedCell axis pos crossing pos offset = .shadow := by
  have hany : crossing.any (·.hasLine axis.other offset) = true := List.any_eq_true.mpr ⟨r, hr, ho⟩
  simp [insertedCell, hany]

theorem insertedCell_new_of_not (hn : ∀ r ∈ crossing, ¬r.hasLine axis.other offset = true) :
    g.insertedCell axis pos crossing pos offset = .empty := by
  have hany : crossing.any (·.hasLine axis.other offset) = false := by simpa using hn
  simp [insertedCell, hany]

end InsertedCell

/-- The grid with a line inserted before `pos`. -/
def inserted (g : Grid) (axis : Axis) (pos : Nat) : Grid :=
  g.tabulateLines axis (g.lineCount axis + 1) (g.insertedCell axis pos (g.runningThrough axis pos))

theorem insertLine_eq_ok_iff {g' : Grid} :
    g.insertLine axis pos = .ok g' ↔ pos ≤ g.lineCount axis ∧ g' = g.inserted axis pos := by
  rw [insertLine_eq, inserted]
  split
  next hlt => simp [hlt]
  next hle => simp [Nat.le_of_not_lt hle, eq_comm]

theorem inserted_full : (g.inserted axis pos).Full := tabulateLines_full

@[simp] theorem lineCount_inserted :
    (g.inserted axis pos).lineCount axis = g.lineCount axis + 1 := lineCount_tabulateLines

@[simp] theorem lineCount_other_inserted :
    (g.inserted axis pos).lineCount axis.other = g.lineCount axis.other :=
  lineCount_other_tabulateLines

theorem cellOn_inserted (hl : line < g.lineCount axis + 1) (ho : offset < g.lineCount axis.other) :
    (g.inserted axis pos).cellOn axis line offset =
      g.insertedCell axis pos (g.runningThrough axis pos) line offset :=
  cellOn_tabulateLines hl ho

namespace Layout

theorem mem_runningThrough (h : Layout g R) (hi : Indexed R) :
    r ∈ g.runningThrough axis pos ↔ r ∈ R ∧ r.first axis < pos ∧ pos ≤ r.last axis := by
  simp [runningThrough, h.mem_regions hi]

/-- A region that has grown or moved owns the cell where it starts now. -/
theorem owner_inserted (h : Layout g R) (hi : Indexed R) (hr : r ∈ R)
    (hs : (r.grown axis pos).startsOn axis line offset = true) :
    (g.insertedCell axis pos (g.runningThrough axis pos) line offset).hidden = false ∧
      ∀ a, (g.insertedCell axis pos (g.runningThrough axis pos) line offset).span a =
        (r.grown axis pos).lineCount a := by
  have hord := h.ordered r hr
  rw [Axis.forall_iff axis]
  rcases CellRange.startsOn_grown.mp hs with ⟨hl, hs⟩ | ⟨hl, hs⟩
  · obtain ⟨hv, hspan⟩ := h.owner_on hr hs
    have hfirst := (CellRange.startsOn_iff.mp hs).1
    by_cases hrun : r.first axis < pos ∧ pos ≤ r.last axis
    · rw [insertedCell_of_startsOn hl ((h.mem_runningThrough hi).mpr ⟨hr, hrun⟩) hs]
      simp [hv, hspan, CellRange.lineCount_grown_running hrun]
    · rw [insertedCell_of_lt hl]
      · simp [hv, hspan, CellRange.lineCount_grown_apart hord hrun]
      · intro s hsC hss
        obtain ⟨hsR, hsrun⟩ := (h.mem_runningThrough hi).mp hsC
        have hrs := h.eq_of_startsOn hr hsR (CellRange.containsOn_of_startsOn hord hs) hss
        exact hrun (hrs ▸ hsrun)
  · obtain ⟨hv, hspan⟩ := h.owner_on hr hs
    have hfirst := (CellRange.startsOn_iff.mp hs).1
    rw [insertedCell_of_gt hl]
    simp [hv, hspan, CellRange.lineCount_grown_apart hord
      (show ¬(r.first axis < pos ∧ pos ≤ r.last axis) by omega)]

theorem shadow_inserted (h : Layout g R) (hi : Indexed R) (hr : r ∈ R)
    (hc : (r.grown axis pos).ContainsOn axis line offset)
    (hs : ¬(r.grown axis pos).startsOn axis line offset = true) :
    g.insertedCell axis pos (g.runningThrough axis pos) line offset = .shadow := by
  rw [CellRange.startsOn_grown] at hs
  rcases CellRange.containsOn_grown.mp hc with ⟨hl, hc⟩ | ⟨rfl, hrun, ho⟩ | ⟨hl, hc⟩
  · have hns : ¬r.startsOn axis line offset = true := fun h' => hs (.inl ⟨hl, h'⟩)
    rw [insertedCell_of_lt hl]
    · exact h.shadow_on hr hc hns
    · intro s hsC hss
      have hsR := ((h.mem_runningThrough hi).mp hsC).1
      exact hns (h.eq_of_startsOn hr hsR hc hss ▸ hss)
  · exact insertedCell_new_of_hasLine ((h.mem_runningThrough hi).mpr ⟨hr, hrun⟩)
      (CellRange.hasLine_iff.mpr ho)
  · rw [insertedCell_of_gt hl]
    exact h.shadow_on hr hc fun h' => hs (.inr ⟨hl, h'⟩)

theorem free_inserted (h : Layout g R) (hi : Indexed R)
    (hfree : ∀ r ∈ R, ¬(r.grown axis pos).ContainsOn axis line offset) :
    (g.insertedCell axis pos (g.runningThrough axis pos) line offset).hidden = false ∧
      ∀ a, (g.insertedCell axis pos (g.runningThrough axis pos) line offset).span a = 1 := by
  simp only [CellRange.containsOn_grown, not_or, not_and] at hfree
  rcases lt_trichotomy line pos with hl | rfl | hl
  · rw [insertedCell_of_lt hl]
    · exact h.free_on fun r hr => (hfree r hr).1 hl
    · intro s hsC hss
      have hsR := ((h.mem_runningThrough hi).mp hsC).1
      exact (hfree s hsR).1 hl (CellRange.containsOn_of_startsOn (h.ordered s hsR) hss)
  · rw [insertedCell_new_of_not]
    · exact ⟨rfl, fun a => by cases a <;> rfl⟩
    · intro s hsC ho
      obtain ⟨hsR, hrun⟩ := (h.mem_runningThrough hi).mp hsC
      obtain ⟨ho₁, ho₂⟩ := CellRange.hasLine_iff.mp ho
      exact (hfree s hsR).2.1 rfl hrun ho₁ ho₂
  · rw [insertedCell_of_gt hl]
    exact h.free_on fun r hr => (hfree r hr).2.2 hl

theorem grown_inside (h : Layout g R) (hr : r ∈ R) :
    ∀ a, (r.grown axis pos).last a < (g.inserted axis pos).lineCount a := by
  rw [Axis.forall_iff axis]
  have ha := h.inside r hr axis
  have ho := h.inside r hr axis.other
  simp only [CellRange.grown, CellRange.last_withLines, CellRange.last_other_withLines,
    lineCount_inserted, lineCount_other_inserted, shifted]
  split_ifs <;> omega

/-- Inserting a line moves and grows the regions, and changes nothing else about them. -/
theorem inserted (h : Layout g R) (hi : Indexed R) (axis : Axis) (pos : Nat) :
    Layout (g.inserted axis pos) (CellRange.grown axis pos '' R) := by
  have hcell {line offset : Nat} {r : CellRange} (hr : r ∈ R)
      (hc : (r.grown axis pos).ContainsOn axis line offset) :
      (g.inserted axis pos).cellOn axis line offset =
        g.insertedCell axis pos (g.runningThrough axis pos) line offset := by
    have ha := hc.1.2.trans_lt (h.grown_inside hr axis)
    have ho := hc.2.2.trans_lt (h.grown_inside hr axis.other)
    simp only [lineCount_inserted, lineCount_other_inserted] at ha ho
    exact cellOn_inserted ha ho
  apply of_axis axis inserted_full
  · rw [Axis.forall_iff axis]
    simpa using h.pos axis.other
  · rintro _ ⟨r, hr, rfl⟩
    exact (h.ordered r hr).grown
  · rintro _ ⟨r, hr, rfl⟩
    exact h.grown_inside hr
  · rintro _ ⟨r, hr, rfl⟩
    rw [CellRange.isSingle_grown, h.proper r hr]
  · rintro _ ⟨r, hr, rfl⟩ _ ⟨s, hs, rfl⟩ line offset hrc hsc
    rw [h.eq_on hr hs (CellRange.containsOn_of_grown hrc) (CellRange.containsOn_of_grown hsc)]
  · rintro _ ⟨r, hr, rfl⟩ line offset hs
    rw [hcell hr (CellRange.containsOn_of_startsOn (h.ordered r hr).grown hs)]
    exact h.owner_inserted hi hr hs
  · rintro _ ⟨r, hr, rfl⟩ line offset hc hs
    rw [hcell hr hc]
    exact h.shadow_inserted hi hr hc hs
  · intro line offset hfree
    by_cases hin : line < g.lineCount axis + 1 ∧ offset < g.lineCount axis.other
    · rw [cellOn_inserted hin.1 hin.2]
      exact h.free_inserted hi fun r hr => hfree _ ⟨r, hr, rfl⟩
    · rw [cellOn_of_not_lt (by simpa using hin)]
      exact ⟨rfl, fun a => by cases a <;> rfl⟩

end Layout
end Grid
end LatexTable
