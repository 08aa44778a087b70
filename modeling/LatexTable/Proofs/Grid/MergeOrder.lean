import LatexTable.Proofs.Grid.Owner
import LatexTable.Proofs.Grid.Reachable
/-!
A merge by the content of the cells: it clears the rectangle except for its first cell and keeps
every other text and style, whatever regions it takes apart. Merges of rectangles that share no cell
can therefore be made in either order.
-/
namespace LatexTable
open Result

namespace CellRange

variable {R : Set CellRange} {r s : CellRange} {row col : Nat}

/-- The cell loses its content when the rectangle is merged. -/
def Clears (r : CellRange) (row col : Nat) : Prop :=
  r.contains row col = true ∧ r.startsAt row col = false

instance : Decidable (r.Clears row col) :=
  inferInstanceAs (Decidable (r.contains row col = true ∧ r.startsAt row col = false))

theorem not_clears_of_isSingle (h : r.isSingle = true) : ¬r.Clears row col := by
  rintro ⟨hc, hs⟩
  have hc' : r.ContainsOn .row row col := contains_iff.mp hc
  rw [startsAt_iff.mpr (startsOn_iff.mp (startsOn_of_isSingle h hc'))] at hs
  contradiction

/-- The regions after a rectangle is merged. -/
def joined (r : CellRange) (R : Set CellRange) : Set CellRange :=
  if r.isSingle then R else insert r {s ∈ R | s.intersects r = false}

theorem joined_of_isSingle (h : r.isSingle = true) : r.joined R = R := by simp [joined, h]

theorem joined_of_proper (h : r.isSingle = false) :
    r.joined R = insert r {s ∈ R | s.intersects r = false} := by simp [joined, h]

/-- Rectangles that do not meet become regions in either order. -/
theorem joined_comm (hapart : r.intersects s = false) :
    s.joined (r.joined R) = r.joined (s.joined R) := by
  have hback : s.intersects r = false := intersects_comm.trans hapart
  cases hr : r.isSingle with
  | true => rw [joined_of_isSingle hr, joined_of_isSingle hr]
  | false =>
    cases hs : s.isSingle with
    | true => rw [joined_of_isSingle hs, joined_of_isSingle hs]
    | false =>
      simp only [joined_of_proper hr, joined_of_proper hs]
      ext t
      simp only [Set.mem_insert_iff, Set.mem_ofPred_eq]
      constructor
      · rintro (rfl | ⟨rfl | ⟨ht, htr⟩, hts⟩)
        · exact .inr ⟨.inl rfl, hback⟩
        · exact .inl rfl
        · exact .inr ⟨.inr ⟨ht, hts⟩, htr⟩
      · rintro (rfl | ⟨rfl | ⟨ht, hts⟩, htr⟩)
        · exact .inr ⟨.inl rfl, hapart⟩
        · exact .inl rfl
        · exact .inr ⟨.inr ⟨ht, htr⟩, hts⟩

theorem intersects_eq_false_of_apart (hr : r.Ordered) (hs : s.Ordered)
    (h : ∀ row col, r.contains row col = true → s.contains row col = false) :
    r.intersects s = false := by
  by_contra hmeet
  obtain ⟨row, col, hrc, hsc⟩ :=
    exists_contains_of_intersects hr hs ((Bool.not_eq_false _).mp hmeet)
  rw [h row col hrc] at hsc
  contradiction

end CellRange

namespace Grid

variable {g g' : Grid} {R : Set CellRange} {r s : CellRange} {gone : List CellRange}
  {row col : Nat}

/-- The grid after a rectangle is merged. -/
def joined (g : Grid) (r : CellRange) : Grid :=
  if r.isSingle then g else (g.dissolve (g.regions.filter (·.intersects r))).cover r

@[simp] theorem lineCount_joined (axis : Axis) :
    (g.joined r).lineCount axis = g.lineCount axis := by
  unfold joined
  split
  · rfl
  · rw [lineCount_cover, lineCount_dissolve]

theorem merge_eq_ok_iff_joined (hord : r.Ordered) :
    g.merge r = .ok g' ↔ (∀ axis, r.last axis < g.lineCount axis) ∧ g' = g.joined r :=
  merge_eq_ok_iff hord

namespace Layout

theorem joined (h : Layout g R) (hi : Indexed R) (hord : r.Ordered)
    (hin : ∀ axis, r.last axis < g.lineCount axis) : Layout (g.joined r) (r.joined R) := by
  cases hs : r.isSingle with
  | true => simpa only [Grid.joined, CellRange.joined, hs, if_true] using h
  | false =>
    simpa only [Grid.joined, CellRange.joined, hs, Bool.false_eq_true, if_false] using
      h.merge hi hord hin hs

/-- The regions after a merge end at indices, since the size stays. -/
theorem indexed_joined (h : Layout g R) (hf : g.Fits) (hord : r.Ordered)
    (hin : ∀ axis, r.last axis < g.lineCount axis) : Indexed (r.joined R) := by
  apply (h.joined (h.indexed hf) hord hin).indexed_of_le
  intro axis
  rw [lineCount_joined]
  exact (h.lineCount_le hf axis).trans (Nat.le_succ _)

/-- Dissolving a region changes no content, since shadows are blank. -/
theorem content_dissolve (h : Layout g R) (hgone : ∀ r ∈ gone, r ∈ R) :
    ((g.dissolve gone).cellAt row col).content = (g.cellAt row col).content := by
  rw [h.cellAt_dissolve hgone, dissolvedAt]
  split_ifs with hstarts hcontains
  · rfl
  · obtain ⟨r, hr, hc⟩ := List.any_eq_true.mp hcontains
    have hs : r.startsAt row col = false :=
      (Bool.not_eq_true _).mp fun hs => hstarts (List.any_eq_true.mpr ⟨r, hr, hs⟩)
    rw [h.shadow r (hgone r hr) row col hc hs]
    rfl
  · rfl

theorem content_cover (hin : ∀ axis, r.last axis < g.lineCount axis) (hord : r.Ordered) :
    ((g.cover r).cellAt row col).content =
      if r.Clears row col then Cell.empty.content else (g.cellAt row col).content := by
  rw [cellAt_cover hin hord]
  cases hs : r.startsAt row col with
  | true => simp [CellRange.Clears, hs, Cell.content]
  | false =>
    cases hc : r.contains row col with
    | true => simp [CellRange.Clears, hs, hc, Cell.content, Cell.shadow, Cell.empty]
    | false => simp [CellRange.Clears, hs, hc]

/-- A merge clears the cells of its rectangle but the first one. -/
theorem content_joined (h : Layout g R) (hi : Indexed R) (hord : r.Ordered)
    (hin : ∀ axis, r.last axis < g.lineCount axis) :
    ((g.joined r).cellAt row col).content =
      if r.Clears row col then Cell.empty.content else (g.cellAt row col).content := by
  cases hs : r.isSingle with
  | true =>
    rw [Grid.joined, if_pos hs, if_neg (CellRange.not_clears_of_isSingle hs)]
  | false =>
    have hgone : ∀ s ∈ g.regions.filter (·.intersects r), s ∈ R :=
      fun s hs => (h.mem_regions hi).mp (List.mem_filter.mp hs).1
    rw [Grid.joined, if_neg (by simp [hs]), content_cover (by simpa using hin) hord,
      h.content_dissolve hgone]

/-- The regions and the contents of all cells determine a grid. -/
theorem ext_content (h : Layout g R) (h' : Layout g' R)
    (hlines : ∀ axis, g.lineCount axis = g'.lineCount axis)
    (hcontent : ∀ row col, (g.cellAt row col).content = (g'.cellAt row col).content) : g = g' := by
  refine h.full.ext h'.full (hlines .row) (hlines .column) fun row col _ _ => ?_
  have htext := congrArg CellContent.text (hcontent row col)
  have hstyle := congrArg CellContent.style (hcontent row col)
  rcases owner_or_shadow_or_free R row col with ⟨r, hr, hs⟩ | ⟨r, hr, hc, hs⟩ | hfree
  · obtain ⟨hv, hspan⟩ := h.owner r hr row col hs
    obtain ⟨hv', hspan'⟩ := h'.owner r hr row col hs
    exact Cell.ext_span htext (fun a => (hspan a).trans (hspan' a).symm) (hv.trans hv'.symm) hstyle
  · rw [h.shadow r hr row col hc hs, h'.shadow r hr row col hc hs]
  · obtain ⟨hv, hspan⟩ := h.free row col hfree
    obtain ⟨hv', hspan'⟩ := h'.free row col hfree
    exact Cell.ext_span htext (fun a => (hspan a).trans (hspan' a).symm) (hv.trans hv'.symm) hstyle

/-- Rectangles that do not meet can be merged in either order. -/
theorem joined_comm (h : Layout g R) (hf : g.Fits) (hr : r.Ordered) (hs : s.Ordered)
    (hrin : ∀ axis, r.last axis < g.lineCount axis) (hsin : ∀ axis, s.last axis < g.lineCount axis)
    (hapart : r.intersects s = false) : (g.joined r).joined s = (g.joined s).joined r := by
  have hi := h.indexed hf
  have hir := h.indexed_joined hf hr hrin
  have his := h.indexed_joined hf hs hsin
  have hrs : ∀ axis, s.last axis < (g.joined r).lineCount axis := by simpa using hsin
  have hsr : ∀ axis, r.last axis < (g.joined s).lineCount axis := by simpa using hrin
  have hone := (h.joined hi hr hrin).joined hir hs hrs
  have hother := (h.joined hi hs hsin).joined his hr hsr
  rw [← CellRange.joined_comm hapart] at hother
  refine hone.ext_content hother (by simp) fun row col => ?_
  rw [(h.joined hi hr hrin).content_joined hir hs hrs,
    (h.joined hi hs hsin).content_joined his hr hsr,
    h.content_joined hi hr hrin, h.content_joined hi hs hsin]
  split_ifs <;> rfl

end Layout

/-- On every reachable grid, rectangles that share no cell are merged in either order with one
result, whatever regions meet them. -/
theorem reachable_merges_commute (h : Reachable g) (hr : r.Ordered) (hs : s.Ordered)
    (hrin : r.maxRow < g.rows ∧ r.maxCol < g.cols) (hsin : s.maxRow < g.rows ∧ s.maxCol < g.cols)
    (hapart : ∀ row col, r.contains row col = true → s.contains row col = false) :
    ∃ g', (g.merge r >>= fun g => g.merge s) = .ok g' ∧
      (g.merge s >>= fun g => g.merge r) = .ok g' := by
  have hrlast : ∀ axis, r.last axis < g.lineCount axis := (Axis.forall_iff .row).mpr hrin
  have hslast : ∀ axis, s.last axis < g.lineCount axis := (Axis.forall_iff .row).mpr hsin
  have hmeet := CellRange.intersects_eq_false_of_apart hr hs hapart
  refine ⟨(g.joined r).joined s, ?_, ?_⟩
  · simp only [bind_eq_ok, merge_eq_ok_iff_joined hr, merge_eq_ok_iff_joined hs]
    exact ⟨_, ⟨hrlast, rfl⟩, by simpa using hslast, rfl⟩
  · simp only [bind_eq_ok, merge_eq_ok_iff_joined hr, merge_eq_ok_iff_joined hs]
    exact ⟨_, ⟨hslast, rfl⟩, by simpa using hrlast,
      h.layout.joined_comm h.fits hr hs hrlast hslast hmeet⟩

theorem reachable_merges_commute_across :
    let g := ((Grid.blank 3 4).after (.merge 1 1 2 2)).after (.setText 1 1 "old")
    let r := CellRange.ofCorners 0 0 1 1
    let s := CellRange.ofCorners 2 2 1 3
    ∃ g', (g.merge r >>= fun g => g.merge s) = .ok g' ∧
      (g.merge s >>= fun g => g.merge r) = .ok g' := by
  refine reachable_merges_commute (.edit _ (.edit _ (.blank 3 4 ?_) ?_) ?_)
    (CellRange.ofCorners_ordered _ _ _ _) (CellRange.ofCorners_ordered _ _ _ _) ?_ ?_ ?_
  case refine_6 =>
    intro row col hr
    rw [← Bool.not_eq_true, CellRange.contains_iff]
    obtain ⟨-, -, hcol⟩ := CellRange.contains_iff.mp hr
    simp only [CellRange.ofCorners] at hcol ⊢
    omega
  all_goals decide

end Grid
end LatexTable
