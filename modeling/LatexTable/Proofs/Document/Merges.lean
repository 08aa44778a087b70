import LatexTable.Document.Basic
import LatexTable.Proofs.Grid.Deletion
import LatexTable.Proofs.Grid.Merge
import Mathlib.Data.List.Pairwise
/-!
Merging rectangles that share no cell, one after the other, on a grid without regions: every
rectangle of several cells becomes a region, and no merge disturbs an earlier one.
-/
namespace LatexTable
open Result

namespace CellRange

/-- A single cell is the first one. -/
theorem startsAt_of_isSingle {r : CellRange} {row col : Nat} (h : r.isSingle = true)
    (hc : r.contains row col = true) : r.startsAt row col = true :=
  have hc' : r.ContainsOn .row row col := contains_iff.mp hc
  startsAt_iff.mpr (startsOn_iff.mp (startsOn_of_isSingle h hc'))

end CellRange

theorem Cell.eq_of_spans_one {c : Cell} (h : ∀ axis, c.span axis = 1) :
    { c with rowSpan := 1, colSpan := 1 } = c := by
  have hrow : c.rowSpan = 1 := h .row
  have hcol : c.colSpan = 1 := h .column
  cases c
  simp_all

namespace Grid

variable {g : Grid} {r s : CellRange} {rs done : List CellRange} {row col : Nat}

/-- Rectangles inside a grid, no two of which share a cell. -/
structure Apart (g : Grid) (rs : List CellRange) : Prop where
  ordered : ∀ r ∈ rs, r.Ordered
  inside : ∀ r ∈ rs, ∀ axis, r.last axis < g.lineCount axis
  apart : rs.Pairwise fun r s => r.intersects s = false

/-- A cell of a grid without regions after rectangles have become regions of it. -/
def mergedCell (g : Grid) (rs : List CellRange) (row col : Nat) : Cell :=
  match rs.find? (·.contains row col) with
  | none => g.cellAt row col
  | some r =>
    if r.startsAt row col then { g.cellAt row col with rowSpan := r.rowCount, colSpan := r.colCount }
    else .shadow

def merged (g : Grid) (rs : List CellRange) : Grid := tabulate g.rows g.cols (g.mergedCell rs)

theorem merged_full : (g.merged rs).Full := tabulate_full ..

@[simp] theorem lineCount_merged (axis : Axis) :
    (g.merged rs).lineCount axis = g.lineCount axis := by cases axis <;> rfl

theorem merged_nil (hg : g.Full) : g.merged [] = g :=
  merged_full.ext hg rfl rfl fun _ _ hr hc => cellAt_tabulate hr hc

theorem dissolve_nil (hg : g.Full) : g.dissolve [] = g :=
  dissolve_full.ext hg rfl rfl fun _ _ hr hc => cellAt_tabulate hr hc

theorem mergedCell_of_not_contains (hn : ∀ r ∈ rs, r.contains row col = false) :
    g.mergedCell rs row col = g.cellAt row col := by
  have hfind : rs.find? (·.contains row col) = none := by
    rw [List.find?_eq_none]
    exact fun r hr => by simp [hn r hr]
  rw [mergedCell, hfind]

namespace Apart

theorem eq_of_contains (h : Apart g rs) (hr : r ∈ rs) (hs : s ∈ rs)
    (hrc : r.contains row col = true) (hsc : s.contains row col = true) : r = s := by
  by_contra hne
  have hmeet := CellRange.intersects_of_contains hrc hsc
  have hsymm : Std.Symm fun r s : CellRange => r.intersects s = false :=
    ⟨fun r s hrs => CellRange.intersects_comm.trans hrs⟩
  rw [h.apart.forall hr hs hne] at hmeet
  contradiction

theorem find?_eq_some (h : Apart g rs) (hr : r ∈ rs) (hc : r.contains row col = true) :
    rs.find? (·.contains row col) = some r :=
  find?_eq_some_of_unique hr hc fun _ hs hsc => h.eq_of_contains hs hr hsc hc

theorem mergedCell_of_contains (h : Apart g rs) (hr : r ∈ rs) (hc : r.contains row col = true) :
    g.mergedCell rs row col =
      if r.startsAt row col then
        { g.cellAt row col with rowSpan := r.rowCount, colSpan := r.colCount }
      else .shadow := by
  rw [mergedCell, h.find?_eq_some hr hc]

theorem cellAt_merged (h : Apart g rs) (row col : Nat) :
    (g.merged rs).cellAt row col = g.mergedCell rs row col := by
  by_cases hin : row < g.rows ∧ col < g.cols
  · exact cellAt_tabulate hin.1 hin.2
  · rw [cellAt_of_not_lt (g := g.merged rs) hin, mergedCell_of_not_contains, cellAt_of_not_lt hin]
    intro r hr
    by_contra hc
    obtain ⟨⟨-, a⟩, -, b⟩ := CellRange.contains_iff.mp ((Bool.not_eq_false _).mp hc)
    exact hin ⟨a.trans_lt (h.inside r hr .row), b.trans_lt (h.inside r hr .column)⟩

theorem layout (h : Apart g rs) (hg : Layout g ∅) :
    Layout (g.merged rs) {r | r ∈ rs ∧ r.isSingle = false} := by
  have hfree (row col : Nat) := hg.free row col fun r hr => absurd hr (Set.notMem_empty r)
  constructor
  · exact merged_full
  · simpa using hg.pos
  · exact fun r hr => h.ordered r hr.1
  · simpa using fun r hr _ => h.inside r hr
  · exact fun r hr => hr.2
  · intro r hr s hs hmeet
    obtain ⟨row, col, hrc, hsc⟩ :=
      CellRange.exists_contains_of_intersects (h.ordered r hr.1) (h.ordered s hs.1) hmeet
    exact h.eq_of_contains hr.1 hs.1 hrc hsc
  · intro r hr row col hstarts
    have hc := CellRange.contains_of_startsAt (h.ordered r hr.1) hstarts
    rw [h.cellAt_merged, h.mergedCell_of_contains hr.1 hc, if_pos hstarts]
    exact ⟨(hfree row col).1, fun axis => by cases axis <;> rfl⟩
  · intro r hr row col hc hstarts
    rw [h.cellAt_merged, h.mergedCell_of_contains hr.1 hc, hstarts]
    rfl
  · intro row col hnone
    rw [h.cellAt_merged]
    by_cases hin : ∀ r ∈ rs, r.contains row col = false
    · rw [mergedCell_of_not_contains hin]
      exact hfree row col
    · -- the place is a rectangle of its own
      push Not at hin
      obtain ⟨r, hr, hc⟩ := hin
      rw [ne_eq, Bool.not_eq_false] at hc
      have hsingle : r.isSingle = true := by
        by_contra hs
        rw [hnone r ⟨hr, (Bool.not_eq_true _).mp hs⟩] at hc
        contradiction
      rw [h.mergedCell_of_contains hr hc, if_pos (CellRange.startsAt_of_isSingle hsingle hc)]
      refine ⟨(hfree row col).1, fun axis => ?_⟩
      have hone := CellRange.lineCount_eq_one hsingle axis
      cases axis <;> exact hone

theorem of_append (h : Apart g (rs ++ done)) : Apart g rs where
  ordered := fun s hs => h.ordered s (List.mem_append_left _ hs)
  inside := fun s hs => h.inside s (List.mem_append_left _ hs)
  apart := (List.pairwise_append.mp h.apart).1

theorem append (h : Apart g rs) (hord : r.Ordered) (hin : ∀ axis, r.last axis < g.lineCount axis)
    (hapart : ∀ s ∈ rs, s.intersects r = false) : Apart g (rs ++ [r]) where
  ordered := by
    intro s hs
    rcases List.mem_append.mp hs with hs | hs
    · exact h.ordered s hs
    · rwa [List.mem_singleton.mp hs]
  inside := by
    intro s hs
    rcases List.mem_append.mp hs with hs | hs
    · exact h.inside s hs
    · rwa [List.mem_singleton.mp hs]
  apart := List.pairwise_append.mpr ⟨h.apart, List.pairwise_singleton _ _,
    fun s hs t ht => List.mem_singleton.mp ht ▸ hapart s hs⟩

theorem last_apart (h : Apart g (rs ++ [r])) (hs : s ∈ rs) : s.intersects r = false :=
  (List.pairwise_append.mp h.apart).2.2 s hs r List.mem_cons_self

theorem mergedCell_append (h : Apart g (rs ++ [r])) (row col : Nat) :
    g.mergedCell (rs ++ [r]) row col =
      if r.contains row col then
        if r.startsAt row col then
          { g.cellAt row col with rowSpan := r.rowCount, colSpan := r.colCount }
        else .shadow
      else g.mergedCell rs row col := by
  by_cases hc : r.contains row col = true
  · rw [h.mergedCell_of_contains (List.mem_append_right _ List.mem_cons_self) hc, if_pos hc]
  · have hfind : (rs ++ [r]).find? (·.contains row col) = rs.find? (·.contains row col) := by
      simp [List.find?_append, hc]
    rw [if_neg hc, mergedCell, mergedCell, hfind]

/-- One merge more. -/
theorem merge_merged (h : Apart g (rs ++ [r])) (hg : Layout g ∅) (hi : Indexed {s | s ∈ rs}) :
    (g.merged rs).merge r = .ok (g.merged (rs ++ [r])) := by
  have hord : r.Ordered := h.ordered r (List.mem_append_right _ List.mem_cons_self)
  have hin := h.inside r (List.mem_append_right _ List.mem_cons_self)
  have hlayout := h.of_append.layout hg
  have hfree (row col : Nat) := hg.free row col fun r hr => absurd hr (Set.notMem_empty r)
  have hplain {row col : Nat} (hc : r.contains row col = true) :
      g.mergedCell rs row col = g.cellAt row col := by
    apply mergedCell_of_not_contains
    intro s hs
    by_contra hsc
    have hmeet := CellRange.intersects_of_contains ((Bool.not_eq_false _).mp hsc) hc
    rw [h.last_apart hs] at hmeet
    contradiction
  refine (merge_eq_ok_iff hord).mpr ⟨by simpa using hin, ?_⟩
  cases hsingle : r.isSingle with
  | true =>
    -- nothing is written, and nothing would change
    rw [if_pos rfl]
    refine merged_full.ext merged_full rfl rfl fun row col hr hc => ?_
    rw [h.cellAt_merged, h.of_append.cellAt_merged, h.mergedCell_append]
    by_cases hc : r.contains row col = true
    · rw [if_pos hc, if_pos (CellRange.startsAt_of_isSingle hsingle hc), hplain hc]
      have hrow : r.rowCount = 1 := CellRange.lineCount_eq_one hsingle .row
      have hcol : r.colCount = 1 := CellRange.lineCount_eq_one hsingle .column
      rw [hrow, hcol, Cell.eq_of_spans_one (hfree row col).2]
    · rw [if_neg hc]
  | false =>
    have hnone : (g.merged rs).regions.filter (·.intersects r) = [] := by
      rw [List.filter_eq_nil_iff]
      intro s hs
      have hmem := (hlayout.mem_regions fun t ht => hi t ht.1).mp hs
      rw [h.last_apart hmem.1]
      simp
    rw [if_neg Bool.false_ne_true, hnone, dissolve_nil merged_full]
    refine merged_full.ext cover_full rfl rfl fun row col hr hc => ?_
    rw [Layout.cellAt_cover (by simpa using hin) hord, h.cellAt_merged, h.of_append.cellAt_merged,
      h.mergedCell_append]
    by_cases hc : r.contains row col = true
    · rw [if_pos hc, hplain hc, ← (hfree row col).1]
      simp only [hc, if_true]
    · have hs : ¬r.startsAt row col = true := fun hs => hc (CellRange.contains_of_startsAt hord hs)
      simp [hc, hs]

end Apart

end Grid

namespace MergeSpec

variable {m : MergeSpec} {r : CellRange} {axis : Axis}

/-- The line after the last one along an axis. -/
def bound (m : MergeSpec) : Axis → Nat
  | .row => m.row + max m.rows 1
  | .column => m.col + max m.cols 1

/-- The rectangle that a merge names. -/
def rectangle (m : MergeSpec) : CellRange := ⟨m.row, m.col, m.bound .row - 1, m.bound .column - 1⟩

theorem first_lt_bound : m.rectangle.first axis < m.bound axis := by
  cases axis <;> simp only [CellRange.first, rectangle, bound] <;> omega

theorem last_rectangle : m.rectangle.last axis = m.bound axis - 1 := by cases axis <;> rfl

theorem rectangle_ordered : m.rectangle.Ordered := fun axis => by
  have hlt : m.rectangle.first axis < m.bound axis := m.first_lt_bound
  rw [last_rectangle]
  omega

/-- A merge has a range when its ends are indices. -/
theorem range_eq_ok_iff :
    m.range = .ok r ↔ (∀ axis, m.bound axis ≤ maxIndex) ∧ r = m.rectangle := by
  have hrange : m.range =
      if maxIndex < m.bound .row || maxIndex < m.bound .column then
        .error (.invalidDocument (.mergeTooLarge m.row m.col m.rows m.cols))
      else .ok (.ofCorners m.row m.col (m.bound .row - 1) (m.bound .column - 1)) := rfl
  have hcorners : CellRange.ofCorners m.row m.col (m.bound .row - 1) (m.bound .column - 1) =
      m.rectangle := m.rectangle_ordered.ofCorners_eq
  have hends : (∀ axis, m.bound axis ≤ maxIndex) ↔
      ¬(maxIndex < m.bound .row || maxIndex < m.bound .column) = true := by
    rw [Axis.forall_iff .row, Bool.or_eq_true, decide_eq_true_eq, decide_eq_true_eq, not_or,
      not_lt, not_lt]
    rfl
  rw [hrange, hcorners, hends]
  split_ifs with hlarge
  · simp [hlarge]
  · rw [Except.ok.injEq, eq_comm, and_iff_right hlarge]

end MergeSpec

namespace TableDocument

variable {g : Grid} {done : List CellRange} {m : MergeSpec} {ms : List MergeSpec}
  {merged : List CellRange × Grid}

/-- A merge more is accepted when its rectangle lies in the grid, apart from the earlier ones. -/
theorem addMerge_eq_ok_iff (hg : g.Layout ∅) (hdone : g.Apart done)
    (hi : Grid.Indexed {s | s ∈ done}) :
    addMerge (done, g.merged done) m = .ok merged ↔
      (∀ axis, m.bound axis ≤ maxIndex) ∧ g.Apart (done ++ [m.rectangle]) ∧
        merged = (done ++ [m.rectangle], g.merged (done ++ [m.rectangle])) := by
  have hord := m.rectangle_ordered
  simp only [addMerge, bind_eq_ok, MergeSpec.range_eq_ok_iff, and_assoc, exists_and_left,
    exists_eq_left]
  refine and_congr_right fun _ => ?_
  constructor
  · intro h
    split at h
    next => cases h
    next hnone =>
      obtain ⟨grid, hgrid, hmerged⟩ := bind_eq_ok.mp h
      have hin := ((Grid.merge_eq_ok_iff hord).mp hgrid).1
      simp only [Grid.lineCount_merged] at hin
      have happart : g.Apart (done ++ [m.rectangle]) := hdone.append hord hin fun s hs => by
        simpa using List.find?_eq_none.mp hnone s hs
      rw [happart.merge_merged hg hi] at hgrid
      obtain rfl := Except.ok.inj hgrid
      exact ⟨happart, pure_eq_ok.mp hmerged⟩
  · rintro ⟨happart, rfl⟩
    have hnone : done.find? (·.intersects m.rectangle) = none := by
      rw [List.find?_eq_none]
      exact fun s hs => by simp [happart.last_apart hs]
    simp only [hnone, bind_eq_ok]
    exact ⟨_, happart.merge_merged hg hi, rfl⟩

/-- Merges are accepted exactly when their rectangles lie in the grid, apart from each other. -/
theorem foldlM_addMerge_append (hg : g.Layout ∅) (hdone : g.Apart done)
    (hi : Grid.Indexed {s | s ∈ done}) :
    ms.foldlM addMerge (done, g.merged done) = .ok merged ↔
      (∀ m ∈ ms, ∀ axis, m.bound axis ≤ maxIndex) ∧
        g.Apart (done ++ ms.map MergeSpec.rectangle) ∧
        merged = (done ++ ms.map MergeSpec.rectangle,
          g.merged (done ++ ms.map MergeSpec.rectangle)) := by
  induction ms generalizing done with
  | nil =>
    rw [List.foldlM_nil, pure_eq_ok]
    simp [hdone]
  | cons m ms ih =>
    have hnext (hm : ∀ axis, m.bound axis ≤ maxIndex) :
        Grid.Indexed {s | s ∈ done ++ [m.rectangle]} := by
      rintro s hs axis
      rcases List.mem_append.mp hs with hs | hs
      · exact hi s hs axis
      · rw [List.mem_singleton.mp hs, MergeSpec.last_rectangle]
        exact (Nat.sub_le _ _).trans (hm axis)
    rw [List.foldlM_cons, bind_eq_ok, List.map_cons, List.append_cons, List.forall_mem_cons]
    simp only [addMerge_eq_ok_iff hg hdone hi]
    constructor
    · rintro ⟨_, ⟨hm, happart, rfl⟩, hrest⟩
      obtain ⟨hms, hrest⟩ := (ih happart (hnext hm)).mp hrest
      exact ⟨⟨hm, hms⟩, hrest⟩
    · rintro ⟨⟨hm, hms⟩, happart, hmerged⟩
      exact ⟨_, ⟨hm, happart.of_append, rfl⟩,
        (ih happart.of_append (hnext hm)).mpr ⟨hms, happart, hmerged⟩⟩

/-- The merges of a document are laid out on the grid of its texts. -/
theorem foldlM_addMerge_eq_ok_iff (hg : g.Layout ∅) :
    ms.foldlM addMerge ([], g) = .ok merged ↔
      (∀ m ∈ ms, ∀ axis, m.bound axis ≤ maxIndex) ∧ g.Apart (ms.map MergeSpec.rectangle) ∧
        merged = (ms.map MergeSpec.rectangle, g.merged (ms.map MergeSpec.rectangle)) := by
  have hnil : g.Apart [] := ⟨nofun, nofun, .nil⟩
  have hfold : ms.foldlM addMerge ([], g.merged []) = .ok merged ↔ _ :=
    foldlM_addMerge_append hg hnil nofun
  rwa [Grid.merged_nil hg.full] at hfold

end TableDocument
end LatexTable
