import LatexTable.Proofs.Grid.InPlace
import LatexTable.Proofs.Grid.Lines
/-!
Deleting a line, on the regions: a place of the new grid lies in what is left of a region when its
old place lies in the region. What is left of a region may be no line, or a single cell.
-/
namespace LatexTable

namespace CellRange

variable {r : CellRange} {axis : Axis} {pos line offset : Nat}

/-- The rectangle after the line `pos` is taken out, if it has any other line. -/
def shrunk (axis : Axis) (pos : Nat) (r : CellRange) : CellRange :=
  r.withLines axis (if r.first axis ≤ pos then r.first axis else r.first axis - 1)
    (if r.last axis < pos then r.last axis else r.last axis - 1)

/-- The rectangle has a line besides `pos`. -/
def HasOtherLine (r : CellRange) (axis : Axis) (pos : Nat) : Prop :=
  r.last axis = pos → r.first axis < pos

theorem containsOn_shrunk (h : r.HasOtherLine axis pos) :
    (r.shrunk axis pos).ContainsOn axis line offset ↔
      r.ContainsOn axis (Grid.shifted pos line) offset := by
  simp only [ContainsOn, shrunk, first_withLines, last_withLines, first_other_withLines,
    last_other_withLines, Grid.shifted]
  unfold HasOtherLine at h
  split_ifs <;> omega

/-- The first line that is left is the old one, or the one after it. -/
theorem startsOn_shrunk :
    (r.shrunk axis pos).startsOn axis line offset = true ↔
      r.startsOn axis (Grid.shifted pos line) offset = true ∨
        (line = pos ∧ r.startsOn axis pos offset = true) := by
  simp only [startsOn_iff, shrunk, first_withLines, first_other_withLines, Grid.shifted]
  split_ifs <;> omega

theorem hasOtherLine_of_containsOn (h : r.ContainsOn axis (Grid.shifted pos line) offset) :
    r.HasOtherLine axis pos := by
  intro hl
  have h' := h.1
  simp only [Grid.shifted] at h'
  split_ifs at h' <;> omega

theorem Ordered.shrunk (hr : r.Ordered) (h : r.HasOtherLine axis pos) :
    (r.shrunk axis pos).Ordered := by
  unfold Ordered
  rw [Axis.forall_iff axis]
  have ha := hr axis
  have ho := hr axis.other
  unfold HasOtherLine at h
  simp only [CellRange.shrunk, first_withLines, last_withLines, first_other_withLines,
    last_other_withLines]
  split_ifs <;> omega

@[simp] theorem lineCount_other_shrunk :
    (r.shrunk axis pos).lineCount axis.other = r.lineCount axis.other := by
  simp [lineCount_eq, shrunk]

theorem lineCount_shrunk_meeting (h : r.HasOtherLine axis pos)
    (hm : r.first axis ≤ pos ∧ pos ≤ r.last axis) :
    (r.shrunk axis pos).lineCount axis = r.lineCount axis - 1 := by
  unfold HasOtherLine at h
  simp only [lineCount_eq, shrunk, first_withLines, last_withLines]
  split_ifs <;> omega

theorem lineCount_shrunk_apart (hr : r.Ordered) (hm : ¬(r.first axis ≤ pos ∧ pos ≤ r.last axis)) :
    (r.shrunk axis pos).lineCount axis = r.lineCount axis := by
  have ha := hr axis
  simp only [lineCount_eq, shrunk, first_withLines, last_withLines]
  split_ifs <;> omega

theorem containsOn_next (hr : r.Ordered) (hs : r.startsOn axis pos offset = true)
    (hl : pos < r.last axis) : r.ContainsOn axis (pos + 1) offset := by
  obtain ⟨rfl, rfl⟩ := startsOn_iff.mp hs
  exact ⟨⟨Nat.le_succ _, hl⟩, le_rfl, hr axis.other⟩

theorem lineCount_eq_one (h : r.isSingle = true) (a : Axis) : r.lineCount a = 1 := by
  rw [lineCount_eq, isSingle_iff.mp h a, Nat.sub_self]

theorem startsOn_of_isSingle (h : r.isSingle = true) (hc : r.ContainsOn axis line offset) :
    r.startsOn axis line offset = true := by
  have h' := isSingle_iff.mp h
  obtain ⟨⟨a, b⟩, c, d⟩ := hc
  exact startsOn_iff.mpr ⟨le_antisymm a (h' axis ▸ b), le_antisymm c (h' axis.other ▸ d)⟩

/-- What is left of the regions when a line is taken out: single cells are no regions any more. -/
def survivors (axis : Axis) (pos : Nat) (R : Set CellRange) : Set CellRange :=
  shrunk axis pos '' {r ∈ R | r.HasOtherLine axis pos ∧
    (r.shrunk axis pos).isSingle = false}

end CellRange

namespace Grid

variable {g : Grid} {R : Set CellRange} {r : CellRange} {axis : Axis} {pos line offset : Nat}

/-- The grid without the line `pos`. -/
def deleted (g : Grid) (axis : Axis) (pos : Nat) : Grid :=
  g.tabulateLines axis (g.lineCount axis - 1) fun line offset =>
    g.settledCell axis pos (g.meeting axis pos) (shifted pos line) offset

theorem deleteLine_eq_ok_iff {g' : Grid} (hpos : 0 < g.lineCount axis.other) :
    g.deleteLine axis pos = .ok g' ↔
      (pos < g.lineCount axis ∧ g.lineCount axis ≠ 1) ∧ g' = g.deleted axis pos := by
  simp only [deleteLine_eq, Result.check_bind_eq_ok, checkLine_eq_ok_iff hpos]
  by_cases hone : g.lineCount axis = 1
  · simp [hone]
  · simp only [hone, if_false, Result.pure_eq_ok, ne_eq, not_false_eq_true, and_true]
    rfl

theorem deleted_full : (g.deleted axis pos).Full := tabulateLines_full

@[simp] theorem lineCount_deleted :
    (g.deleted axis pos).lineCount axis = g.lineCount axis - 1 := lineCount_tabulateLines

@[simp] theorem lineCount_other_deleted :
    (g.deleted axis pos).lineCount axis.other = g.lineCount axis.other :=
  lineCount_other_tabulateLines

theorem cellOn_deleted (hl : line < g.lineCount axis - 1) (ho : offset < g.lineCount axis.other) :
    (g.deleted axis pos).cellOn axis line offset =
      g.settledCell axis pos (g.meeting axis pos) (shifted pos line) offset :=
  cellOn_tabulateLines hl ho

@[simp] theorem hidden_heir (c : Cell) : (g.heir axis r c).hidden = false := by simp [heir]

@[simp] theorem span_heir (c : Cell) : (g.heir axis r c).span axis = r.lineCount axis - 1 := by
  simp [heir]

@[simp] theorem span_other_heir (c : Cell) :
    (g.heir axis r c).span axis.other = r.lineCount axis.other := by
  simp only [heir, Cell.span_other_withSpan]
  cases axis <;> rfl

namespace Layout

theorem mem_meeting (h : Layout g R) (hi : Indexed R) :
    r ∈ g.meeting axis pos ↔ r ∈ R ∧ r.first axis ≤ pos ∧ pos ≤ r.last axis := by
  simp [meeting, h.mem_regions hi, CellRange.hasLine_iff]

/-- The cell below the first cell of a region takes the region over. -/
theorem settledCell_heir (h : Layout g R) (hi : Indexed R) (hr : r ∈ R)
    (hs : r.startsOn axis pos offset = true) (hl : pos < r.last axis) :
    g.settledCell axis pos (g.meeting axis pos) (pos + 1) offset =
      g.heir axis r (g.cellOn axis (pos + 1) offset) := by
  have hfirst := (CellRange.startsOn_iff.mp hs).1
  have hcount : 1 < r.lineCount axis := by rw [CellRange.lineCount_eq]; omega
  have hmem : r ∈ g.meeting axis pos := (h.mem_meeting hi).mpr ⟨hr, hfirst.le, hl.le⟩
  have hfind : ((g.meeting axis pos).find? fun r =>
      1 < r.lineCount axis && pos + 1 = pos + 1 && r.startsOn axis pos offset) = some r := by
    refine find?_eq_some_of_unique hmem (by simp [hcount, hs]) fun s hsC hss => ?_
    have hsR := ((h.mem_meeting hi).mp hsC).1
    rw [Bool.and_eq_true] at hss
    have hc := CellRange.containsOn_of_startsOn (h.ordered r hr) hs
    exact (h.eq_of_startsOn hr hsR hc hss.2).symm
  rw [settledCell, hfind]

/-- Any other cell only loses a line of its span, if it does. -/
theorem settledCell_of_not_heir (h : Layout g R) (hi : Indexed R)
    (hn : ∀ r ∈ R, line = pos + 1 → r.startsOn axis pos offset = true → ¬pos < r.last axis) :
    g.settledCell axis pos (g.meeting axis pos) line offset =
      if (g.meeting axis pos).any
          fun r => r.first axis < pos && r.startsOn axis line offset then
        (g.cellOn axis line offset).withSpan axis ((g.cellOn axis line offset).span axis - 1)
      else g.cellOn axis line offset := by
  have hnone : ((g.meeting axis pos).find? fun r =>
      1 < r.lineCount axis && line = pos + 1 && r.startsOn axis pos offset) = none := by
    rw [List.find?_eq_none]
    intro r hrC hp
    simp only [Bool.and_eq_true, decide_eq_true_eq] at hp
    have hrR := ((h.mem_meeting hi).mp hrC).1
    have hfirst := (CellRange.startsOn_iff.mp hp.2).1
    apply hn r hrR hp.1.2 hp.2
    have hcount := hp.1.1
    rw [CellRange.lineCount_eq] at hcount
    omega
  simp only [settledCell, hnone]

/-- No region that loses a line starts at the place. -/
theorem any_starts_eq_false (h : Layout g R) (hi : Indexed R) (pos : Nat)
    (hn : ∀ s ∈ R, s.first axis ≤ pos ∧ pos ≤ s.last axis → ¬s.startsOn axis line offset = true) :
    ((g.meeting axis pos).any fun s =>
      s.first axis < pos && s.startsOn axis line offset) = false := by
  rw [List.any_eq_false]
  intro s hsC hss
  obtain ⟨hsR, hsm⟩ := (h.mem_meeting hi).mp hsC
  simp only [Bool.and_eq_true] at hss
  exact hn s hsR hsm hss.2

theorem owner_deleted (h : Layout g R) (hi : Indexed R) (hr : r ∈ R)
    (hother : r.HasOtherLine axis pos)
    (hs : (r.shrunk axis pos).startsOn axis line offset = true) :
    (g.settledCell axis pos (g.meeting axis pos) (shifted pos line) offset).hidden = false ∧
      ∀ a, (g.settledCell axis pos (g.meeting axis pos) (shifted pos line) offset).span a =
        (r.shrunk axis pos).lineCount a := by
  have hord := h.ordered r hr
  rw [Axis.forall_iff axis]
  rcases CellRange.startsOn_shrunk.mp hs with hs | ⟨rfl, hs⟩
  · -- the first cell of the region stays
    have hc := CellRange.containsOn_of_startsOn hord hs
    have hfirst := (CellRange.startsOn_iff.mp hs).1
    have hne : shifted pos line ≠ pos := by unfold shifted; split_ifs <;> omega
    obtain ⟨hv, hspan⟩ := h.owner_on hr hs
    rw [h.settledCell_of_not_heir hi]
    · by_cases hm : r.first axis ≤ pos ∧ pos ≤ r.last axis
      · have hmem := (h.mem_meeting hi).mpr ⟨hr, hm⟩
        have hany : ((g.meeting axis pos).any fun s =>
            s.first axis < pos && s.startsOn axis (shifted pos line) offset) = true :=
          List.any_eq_true.mpr ⟨r, hmem, by simp [hs]; omega⟩
        simp [hany, hv, hspan, CellRange.lineCount_shrunk_meeting hother hm]
      · have hany := h.any_starts_eq_false hi pos fun s hsR hsm hss =>
          hm (h.eq_of_startsOn hr hsR hc hss ▸ hsm)
        simp [hany, hv, hspan, CellRange.lineCount_shrunk_apart hord hm]
    · intro s hsR hl hss hlast
      have hnext := CellRange.containsOn_next (h.ordered s hsR) hss hlast
      have hrs := h.eq_on hr hsR hc (hl ▸ hnext)
      exact hne (hfirst ▸ hrs ▸ (CellRange.startsOn_iff.mp hss).1)
  · -- the first cell of the region goes, and its heir takes over
    have hfirst := (CellRange.startsOn_iff.mp hs).1
    have hlast : line < r.last axis := by
      have ha := hord axis
      unfold CellRange.HasOtherLine at hother
      omega
    have hshift : shifted line line = line + 1 := if_neg (lt_irrefl line)
    rw [hshift, h.settledCell_heir hi hr hs hlast]
    simp [CellRange.lineCount_shrunk_meeting hother ⟨hfirst.le, hlast.le⟩]

theorem shadow_deleted (h : Layout g R) (hi : Indexed R) (hr : r ∈ R)
    (hc : r.ContainsOn axis (shifted pos line) offset)
    (hs : ¬(r.shrunk axis pos).startsOn axis line offset = true) :
    g.settledCell axis pos (g.meeting axis pos) (shifted pos line) offset = .shadow := by
  rw [CellRange.startsOn_shrunk, not_or] at hs
  have hany := h.any_starts_eq_false hi pos fun s hsR _ hss =>
    hs.1 (h.eq_of_startsOn hr hsR hc hss ▸ hss)
  rw [h.settledCell_of_not_heir hi, hany]
  · exact h.shadow_on hr hc hs.1
  · intro s hsR hl hss hlast
    have hnext := CellRange.containsOn_next (h.ordered s hsR) hss hlast
    have hline : line = pos := by unfold shifted at hl; split_ifs at hl <;> omega
    exact hs.2 ⟨hline, h.eq_on hr hsR hc (hl ▸ hnext) ▸ hss⟩

theorem free_deleted (h : Layout g R) (hi : Indexed R)
    (hfree : ∀ r ∈ R, r.HasOtherLine axis pos → (r.shrunk axis pos).isSingle = false →
      ¬(r.shrunk axis pos).ContainsOn axis line offset) :
    (g.settledCell axis pos (g.meeting axis pos) (shifted pos line) offset).hidden = false ∧
      ∀ a, (g.settledCell axis pos (g.meeting axis pos) (shifted pos line) offset).span a = 1 := by
  by_cases hold : ∃ r ∈ R, r.ContainsOn axis (shifted pos line) offset
  · -- of this region a single cell is left
    obtain ⟨r, hr, hc⟩ := hold
    have hother := CellRange.hasOtherLine_of_containsOn hc
    have hc' := (CellRange.containsOn_shrunk hother).mpr hc
    have hsingle : (r.shrunk axis pos).isSingle = true := by
      by_contra hns
      exact hfree r hr hother (by simpa using hns) hc'
    obtain ⟨hv, hspan⟩ :=
      h.owner_deleted hi hr hother (CellRange.startsOn_of_isSingle hsingle hc')
    exact ⟨hv, fun a => (hspan a).trans (CellRange.lineCount_eq_one hsingle a)⟩
  · push Not at hold
    have hany := h.any_starts_eq_false hi pos fun s hsR _ hss =>
      hold s hsR (CellRange.containsOn_of_startsOn (h.ordered s hsR) hss)
    rw [h.settledCell_of_not_heir hi, hany]
    · exact h.free_on hold
    · intro s hsR hl hss hlast
      exact hold s hsR (hl ▸ CellRange.containsOn_next (h.ordered s hsR) hss hlast)

theorem shrunk_inside (h : Layout g R) (hr : r ∈ R) (hother : r.HasOtherLine axis pos)
    (hp : pos < g.lineCount axis) :
    ∀ a, (r.shrunk axis pos).last a < (g.deleted axis pos).lineCount a := by
  rw [Axis.forall_iff axis]
  have ha := h.inside r hr axis
  have ho := h.inside r hr axis.other
  have hord := h.ordered r hr axis
  unfold CellRange.HasOtherLine at hother
  simp only [CellRange.shrunk, CellRange.last_withLines, CellRange.last_other_withLines,
    lineCount_deleted, lineCount_other_deleted]
  split_ifs <;> omega

/-- Deleting a line moves and shrinks the regions, and changes nothing else about them. -/
theorem deleted (h : Layout g R) (hi : Indexed R) (hp : pos < g.lineCount axis)
    (hn : g.lineCount axis ≠ 1) :
    Layout (g.deleted axis pos) (CellRange.survivors axis pos R) := by
  have hcell {line offset : Nat} {r : CellRange} (hr : r ∈ R) (hother : r.HasOtherLine axis pos)
      (hc : (r.shrunk axis pos).ContainsOn axis line offset) :
      (g.deleted axis pos).cellOn axis line offset =
        g.settledCell axis pos (g.meeting axis pos) (shifted pos line) offset := by
    have ha := hc.1.2.trans_lt (h.shrunk_inside hr hother hp axis)
    have ho := hc.2.2.trans_lt (h.shrunk_inside hr hother hp axis.other)
    simp only [lineCount_deleted, lineCount_other_deleted] at ha ho
    exact cellOn_deleted ha ho
  apply of_axis axis deleted_full
  · rw [Axis.forall_iff axis]
    have ha := h.pos axis
    have ho := h.pos axis.other
    simp only [lineCount_deleted, lineCount_other_deleted]
    omega
  · rintro _ ⟨r, ⟨hr, hother, -⟩, rfl⟩
    exact (h.ordered r hr).shrunk hother
  · rintro _ ⟨r, ⟨hr, hother, -⟩, rfl⟩
    exact h.shrunk_inside hr hother hp
  · rintro _ ⟨r, ⟨-, -, hproper⟩, rfl⟩
    exact hproper
  · rintro _ ⟨r, ⟨hr, hro, -⟩, rfl⟩ _ ⟨s, ⟨hs, hso, -⟩, rfl⟩ line offset hrc hsc
    rw [CellRange.containsOn_shrunk hro] at hrc
    rw [CellRange.containsOn_shrunk hso] at hsc
    rw [h.eq_on hr hs hrc hsc]
  · rintro _ ⟨r, ⟨hr, hother, -⟩, rfl⟩ line offset hs
    have hord := (h.ordered r hr).shrunk hother
    rw [hcell hr hother (CellRange.containsOn_of_startsOn hord hs)]
    exact h.owner_deleted hi hr hother hs
  · rintro _ ⟨r, ⟨hr, hother, -⟩, rfl⟩ line offset hc hs
    rw [hcell hr hother hc]
    exact h.shadow_deleted hi hr ((CellRange.containsOn_shrunk hother).mp hc) hs
  · intro line offset hfree
    by_cases hin : line < g.lineCount axis - 1 ∧ offset < g.lineCount axis.other
    · rw [cellOn_deleted hin.1 hin.2]
      exact h.free_deleted hi fun r hr ho hs => hfree _ ⟨r, ⟨hr, ho, hs⟩, rfl⟩
    · rw [cellOn_of_not_lt (by simpa using hin)]
      exact ⟨rfl, fun a => by cases a <;> rfl⟩

end Layout
end Grid
end LatexTable
