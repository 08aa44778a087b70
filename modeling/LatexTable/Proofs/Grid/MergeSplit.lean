import LatexTable.Proofs.Grid.MergeOrder
/-!
Merging and splitting in full: the regions of the new grid, and every cell of it. Both dissolve
regions, and a cell is freed in the same way by both. What is said here determines the new grid.
-/
namespace LatexTable
open Result

namespace CellRange

variable {r s : CellRange}

/-- The rectangles share a cell. -/
def Meets (r s : CellRange) : Prop :=
  ∃ row col, r.contains row col = true ∧ s.contains row col = true

theorem meets_iff_intersects (hr : r.Ordered) (hs : s.Ordered) :
    r.Meets s ↔ r.intersects s = true := by
  constructor
  · intro h
    obtain ⟨row, col, hrc, hsc⟩ := h
    exact intersects_of_contains hrc hsc
  · intro h
    exact exists_contains_of_intersects hr hs h

end CellRange

namespace Grid

variable {g g' : Grid} {R : Set CellRange} {r s : CellRange} {P : CellRange → Prop}
  {p : CellRange → Bool} {row col : Nat} {c c' : Cell}

section Freed

/-- What becomes of the cell at a place when the regions with a property are dissolved. -/
structure FreedCell (g : Grid) (P : CellRange → Prop) (row col : Nat) (c : Cell) : Prop where
  /-- The first cell of a region stays with its text and style. -/
  first : ∀ s ∈ g.regions, P s → s.startsAt row col = true →
    c = { text := (g.cellAt row col).text, style := (g.cellAt row col).style }
  /-- A covered cell comes back empty. -/
  covered : ∀ s ∈ g.regions, P s → s.contains row col = true → s.startsAt row col = false →
    c = .empty
  other : (∀ s ∈ g.regions, P s → s.contains row col = false) → c = g.cellAt row col

theorem FreedCell.unique (h : FreedCell g P row col c) (h' : FreedCell g P row col c') :
    c = c' := by
  rcases Layout.owner_or_shadow_or_free {s | s ∈ g.regions ∧ P s} row col with
    ⟨s, ⟨hs, hp⟩, hstarts⟩ | ⟨s, ⟨hs, hp⟩, hc, hstarts⟩ | hfree
  · rw [h.first s hs hp hstarts, h'.first s hs hp hstarts]
  · rw [h.covered s hs hp hc hstarts, h'.covered s hs hp hc hstarts]
  · have hout : ∀ s ∈ g.regions, P s → s.contains row col = false :=
      fun s hs hp => hfree s ⟨hs, hp⟩
    rw [h.other hout, h'.other hout]

/-- Visible cells stay visible and keep their content. -/
theorem FreedCell.kept (h : FreedCell g P row col c) (hl : Layout g {s | s ∈ g.regions})
    (hv : (g.cellAt row col).hidden = false) :
    c.hidden = false ∧ c.content = (g.cellAt row col).content := by
  rcases Layout.owner_or_shadow_or_free {s | s ∈ g.regions ∧ P s} row col with
    ⟨s, ⟨hs, hp⟩, hstarts⟩ | ⟨s, ⟨hs, hp⟩, hc, hstarts⟩ | hfree
  · rw [h.first s hs hp hstarts]
    exact ⟨rfl, rfl⟩
  · rw [hl.hidden_iff.mpr ⟨s, hs, hc, hstarts⟩] at hv
    contradiction
  · rw [h.other fun s hs hp => hfree s ⟨hs, hp⟩]
    exact ⟨hv, rfl⟩

theorem Layout.freedCell_dissolve (h : Layout g {s | s ∈ g.regions})
    (hP : ∀ s ∈ g.regions, p s = true ↔ P s) (row col : Nat) :
    FreedCell g P row col ((g.dissolve (g.regions.filter p)).cellAt row col) := by
  have hgone : ∀ s ∈ g.regions.filter p, s ∈ g.regions := fun s hs => (List.mem_filter.mp hs).1
  have hmem {s : CellRange} (hs : s ∈ g.regions) (hp : P s) : s ∈ g.regions.filter p :=
    List.mem_filter.mpr ⟨hs, (hP s hs).mpr hp⟩
  rw [h.cellAt_dissolve hgone]
  constructor
  case first =>
    intro s hs hp hstarts
    exact if_pos (List.any_eq_true.mpr ⟨s, hmem hs hp, hstarts⟩)
  case covered =>
    intro s hs hp hc hstarts
    have hnot : ¬(g.regions.filter p).any (·.startsAt row col) = true := by
      intro hany
      obtain ⟨t, ht, htstarts⟩ := List.any_eq_true.mp hany
      have htc := CellRange.contains_of_startsAt (h.ordered t (hgone t ht)) htstarts
      rw [h.eq_of_contains (hgone t ht) hs htc hc, hstarts] at htstarts
      contradiction
    rw [dissolvedAt, if_neg hnot, if_pos (List.any_eq_true.mpr ⟨s, hmem hs hp, hc⟩)]
  case other =>
    intro hfree
    apply dissolvedAt_of_not_contains
    · exact fun s hs => h.ordered s (hgone s hs)
    · intro s hs
      exact hfree s (hgone s hs) ((hP s (hgone s hs)).mp (List.mem_filter.mp hs).2)

end Freed

/-- What merging a rectangle of several cells makes of a grid. -/
structure Merged (g : Grid) (r : CellRange) (g' : Grid) : Prop where
  full : g'.Full
  rows : g'.rows = g.rows
  cols : g'.cols = g.cols
  regions : ∀ s, s ∈ g'.regions ↔ s = r ∨ s ∈ g.regions ∧ ¬s.Meets r
  first_visible : (g.cellAt r.minRow r.minCol).hidden = false →
    g'.cellAt r.minRow r.minCol =
      { text := (g.cellAt r.minRow r.minCol).text, style := (g.cellAt r.minRow r.minCol).style,
        rowSpan := r.rowCount, colSpan := r.colCount }
  first_covered : (g.cellAt r.minRow r.minCol).hidden = true →
    g'.cellAt r.minRow r.minCol = { rowSpan := r.rowCount, colSpan := r.colCount }
  shadow : ∀ row col, r.contains row col = true → r.startsAt row col = false →
    g'.cellAt row col = .shadow
  /-- Outside the rectangle the regions that it meets are dissolved. -/
  outside : ∀ row col, r.contains row col = false →
    FreedCell g (·.Meets r) row col (g'.cellAt row col)
  kept : ∀ row col, r.contains row col = false → (g.cellAt row col).hidden = false →
    (g'.cellAt row col).hidden = false ∧
      (g'.cellAt row col).content = (g.cellAt row col).content

/-- What splitting the regions that start in a rectangle makes of a grid. -/
structure SplitUp (g : Grid) (r : CellRange) (g' : Grid) : Prop where
  full : g'.Full
  rows : g'.rows = g.rows
  cols : g'.cols = g.cols
  regions : ∀ s, s ∈ g'.regions ↔ s ∈ g.regions ∧ r.contains s.minRow s.minCol = false
  cells : ∀ row col,
    FreedCell g (fun s => r.contains s.minRow s.minCol = true) row col (g'.cellAt row col)

namespace Layout

theorem mem_joined (h : Layout g {s | s ∈ g.regions}) (hord : r.Ordered)
    (hproper : r.isSingle = false) :
    s ∈ r.joined {s | s ∈ g.regions} ↔ s = r ∨ s ∈ g.regions ∧ ¬s.Meets r := by
  rw [CellRange.joined_of_proper hproper, Set.mem_insert_iff]
  refine or_congr_right (and_congr_right fun hs => ?_)
  rw [CellRange.meets_iff_intersects (h.ordered s hs) hord, Bool.not_eq_true]

theorem cellAt_joined (hord : r.Ordered) (hin : ∀ axis, r.last axis < g.lineCount axis)
    (hproper : r.isSingle = false) (row col : Nat) :
    (g.joined r).cellAt row col =
      if r.startsAt row col then
        { (g.dissolve (g.regions.filter (·.intersects r))).cellAt row col with
          rowSpan := r.rowCount, colSpan := r.colCount, hidden := false }
      else if r.contains row col then .shadow
      else (g.dissolve (g.regions.filter (·.intersects r))).cellAt row col := by
  rw [Grid.joined, if_neg (by simp [hproper]), cellAt_cover (by simpa using hin) hord]

/-- The first cell of a merged rectangle has the content that it had. -/
theorem cellAt_joined_first (h : Layout g {s | s ∈ g.regions}) (hord : r.Ordered)
    (hin : ∀ axis, r.last axis < g.lineCount axis) (hproper : r.isSingle = false) :
    (g.joined r).cellAt r.minRow r.minCol =
      { text := (g.cellAt r.minRow r.minCol).text, style := (g.cellAt r.minRow r.minCol).style,
        rowSpan := r.rowCount, colSpan := r.colCount } := by
  have hgone : ∀ s ∈ g.regions.filter (·.intersects r), s ∈ g.regions :=
    fun s hs => (List.mem_filter.mp hs).1
  have hcontent :
      ((g.dissolve (g.regions.filter (·.intersects r))).cellAt r.minRow r.minCol).content =
        (g.cellAt r.minRow r.minCol).content := h.content_dissolve hgone
  have htext := congrArg CellContent.text hcontent
  have hstyle := congrArg CellContent.style hcontent
  rw [cellAt_joined hord hin hproper, if_pos r.startsAt_first]
  exact Cell.ext_span htext (fun axis => by cases axis <;> rfl) rfl hstyle

theorem merged (h : Layout g {s | s ∈ g.regions}) (hf : g.Fits) (hord : r.Ordered)
    (hin : ∀ axis, r.last axis < g.lineCount axis) (hproper : r.isSingle = false) :
    Merged g r (g.joined r) := by
  have hlayout := h.joined (h.indexed hf) hord hin
  have hfirst := h.cellAt_joined_first hord hin hproper
  have houtside : ∀ row col, r.contains row col = false →
      FreedCell g (·.Meets r) row col ((g.joined r).cellAt row col) := by
    intro row col hc
    have hs : ¬r.startsAt row col = true := by
      intro hs
      rw [CellRange.contains_of_startsAt hord hs] at hc
      contradiction
    rw [cellAt_joined hord hin hproper, if_neg hs, if_neg (by simp [hc])]
    apply h.freedCell_dissolve
    intro s hs
    exact (CellRange.meets_iff_intersects (h.ordered s hs) hord).symm
  constructor
  case full => exact hlayout.full
  case rows => exact lineCount_joined .row
  case cols => exact lineCount_joined .column
  case regions =>
    intro s
    rw [hlayout.mem_regions (h.indexed_joined hf hord hin), h.mem_joined hord hproper]
  case first_visible => exact fun _ => hfirst
  case first_covered =>
    intro hh
    rw [hfirst, h.eq_shadow_of_hidden hh]
    rfl
  case shadow =>
    intro row col hc hs
    rw [cellAt_joined hord hin hproper, if_neg (by simp [hs]), if_pos hc]
  case outside => exact houtside
  case kept => exact fun row col hc hv => (houtside row col hc).kept h hv

theorem splitUp (h : Layout g {s | s ∈ g.regions}) (hf : g.Fits) :
    SplitUp g r (g.dissolve (g.regions.filter fun s => r.contains s.minRow s.minCol)) := by
  have hlayout := h.split (r := r) (h.indexed hf)
  have hi : Indexed {s ∈ {s | s ∈ g.regions} | r.contains s.minRow s.minCol = false} :=
    fun s hs => h.indexed hf s hs.1
  constructor
  case full => exact hlayout.full
  case rows => exact lineCount_dissolve .row
  case cols => exact lineCount_dissolve .column
  case regions => exact fun s => hlayout.mem_regions hi
  case cells => exact h.freedCell_dissolve fun _ _ => Iff.rfl

end Layout

theorem Merged.unique {g'' : Grid} (h : Merged g r g') (h' : Merged g r g'') : g' = g'' := by
  refine h.full.ext h'.full (h.rows.trans h'.rows.symm) (h.cols.trans h'.cols.symm)
    fun row col _ _ => ?_
  cases hc : r.contains row col with
  | false => exact (h.outside row col hc).unique (h'.outside row col hc)
  | true =>
    cases hs : r.startsAt row col with
    | false => rw [h.shadow row col hc hs, h'.shadow row col hc hs]
    | true =>
      obtain ⟨rfl, rfl⟩ := CellRange.startsAt_iff.mp hs
      cases hv : (g.cellAt r.minRow r.minCol).hidden with
      | false => rw [h.first_visible hv, h'.first_visible hv]
      | true => rw [h.first_covered hv, h'.first_covered hv]

theorem SplitUp.unique {g'' : Grid} (h : SplitUp g r g') (h' : SplitUp g r g'') : g' = g'' :=
  h.full.ext h'.full (h.rows.trans h'.rows.symm) (h.cols.trans h'.cols.symm)
    fun row col _ _ => (h.cells row col).unique (h'.cells row col)

section Merging

theorem merge_outside (hout : ¬(r.maxRow < g.rows ∧ r.maxCol < g.cols)) :
    g.merge r = .error (if r.minRow < g.rows ∧ r.minCol < g.cols
      then g.outOfBounds r.maxRow r.maxCol else g.outOfBounds r.minRow r.minCol) :=
  merge_eq ▸ check_bind_eq_error.mpr (.inl (checkRange_outside hout))

/-- A merge that is refused leaves the grid. -/
theorem after_merge_outside (hord : r.Ordered)
    (hout : ¬(r.maxRow < g.rows ∧ r.maxCol < g.cols)) :
    g.after (.merge r.minRow r.minCol r.maxRow r.maxCol) = g := by
  have hrefused := merge_outside hout
  rw [← hord.ofCorners_eq] at hrefused
  exact after_of_error hrefused

/-- Merging a rectangle of several cells in a reachable grid succeeds, and what it makes of the
regions and the cells determines the new grid. A single cell is left alone, and a rectangle that
does not lie in the grid is refused. -/
theorem reachable_merged (h : Reachable g) (hord : r.Ordered) :
    (r.maxRow < g.rows ∧ r.maxCol < g.cols → r.isSingle = false →
      ∃ g', g.merge r = .ok g' ∧ Merged g r g' ∧ ∀ other, Merged g r other → other = g') ∧
    (r.maxRow < g.rows ∧ r.maxCol < g.cols → r.isSingle = true → g.merge r = .ok g) ∧
    (¬(r.maxRow < g.rows ∧ r.maxCol < g.cols) →
      g.merge r = .error (if r.minRow < g.rows ∧ r.minCol < g.cols
        then g.outOfBounds r.maxRow r.maxCol else g.outOfBounds r.minRow r.minCol) ∧
      g.after (.merge r.minRow r.minCol r.maxRow r.maxCol) = g) := by
  refine ⟨fun hin hproper => ?_, fun hin hsingle => ?_, fun hout => ?_⟩
  · have hlast : ∀ axis, r.last axis < g.lineCount axis := (Axis.forall_iff .row).mpr hin
    have hmerged := h.layout.merged h.fits hord hlast hproper
    exact ⟨_, (merge_eq_ok_iff_joined hord).mpr ⟨hlast, rfl⟩, hmerged,
      fun other ho => ho.unique hmerged⟩
  · have hlast : ∀ axis, r.last axis < g.lineCount axis := (Axis.forall_iff .row).mpr hin
    exact (merge_eq_ok_iff hord).mpr ⟨hlast, (if_pos hsingle).symm⟩
  · exact ⟨merge_outside hout, after_merge_outside hord hout⟩

theorem reachable_merged_over :
    let g := (((Grid.blank 3 4).after (.merge 0 0 1 1)).after (.merge 1 2 2 3)).after
      (.setText 1 2 "old")
    (∃ g', g.merge (.ofCorners 1 1 2 2) = .ok g' ∧ Merged g (.ofCorners 1 1 2 2) g' ∧
      ∀ other, Merged g (.ofCorners 1 1 2 2) other → other = g') ∧
    g.merge (.ofCorners 1 1 1 1) = .ok g ∧
    g.merge (.ofCorners 2 1 0 4) = .error (g.outOfBounds 2 4) ∧
    g.after (.merge 0 1 2 4) = g := by
  intro g
  have hg : Reachable g := by
    refine .edit _ (.edit _ (.edit _ (.blank 3 4 ?_) ?_) ?_) ?_ <;> decide
  have hord (rowA colA rowB colB : Nat) : (CellRange.ofCorners rowA colA rowB colB).Ordered :=
    CellRange.ofCorners_ordered rowA colA rowB colB
  refine ⟨(reachable_merged hg (hord 1 1 2 2)).1 ?_ ?_,
    (reachable_merged hg (hord 1 1 1 1)).2.1 ?_ ?_,
    (reachable_merged hg (hord 2 1 0 4)).2.2 ?_⟩ <;> decide

end Merging

section Splitting

theorem contains_first_eq_false (hs : s.Ordered) (h : ¬s.Meets r) :
    r.contains s.minRow s.minCol = false := by
  by_contra hc
  exact h ⟨s.minRow, s.minCol, hs.contains_first, (Bool.not_eq_false _).mp hc⟩

namespace Layout

variable (h : Layout g {s | s ∈ g.regions}) (hord : r.Ordered)
  (hapart : ∀ s ∈ g.regions, ¬s.Meets r)
include h hord hapart

/-- A rectangle that meets no region becomes one more region, unless it is a single cell. -/
theorem mem_joined_apart (s : CellRange) :
    s ∈ r.joined {s | s ∈ g.regions} ↔ s ∈ g.regions ∨ r.isSingle = false ∧ s = r := by
  cases hsingle : r.isSingle with
  | true =>
    rw [CellRange.joined_of_isSingle hsingle]
    simp
  | false =>
    rw [h.mem_joined hord hsingle]
    constructor
    · intro hs
      rcases hs with hs | hs
      · exact .inr ⟨rfl, hs⟩
      · exact .inl hs.1
    · intro hs
      rcases hs with hs | hs
      · exact .inr ⟨hs, hapart s hs⟩
      · exact .inl hs.2

/-- The region that a merge adds is the only one that starts in the rectangle. -/
theorem joined_starting :
    {s ∈ r.joined {s | s ∈ g.regions} | r.contains s.minRow s.minCol = false} =
      {s | s ∈ g.regions} := by
  ext s
  rw [Set.mem_ofPred_eq, h.mem_joined_apart hord hapart]
  constructor
  · intro hs
    rcases hs with ⟨hs | hs, hc⟩
    · exact hs
    · rw [hs.2, hord.contains_first] at hc
      contradiction
  · intro hs
    exact ⟨.inl hs, contains_first_eq_false (h.ordered s hs) (hapart s hs)⟩

variable (hf : g.Fits) (hin : ∀ axis, r.last axis < g.lineCount axis)
include hf hin

theorem length_joined_starting :
    ((g.joined r).regions.filter fun s => r.contains s.minRow s.minCol).length =
      if r.isSingle then 0 else 1 := by
  have hlayout := h.joined (h.indexed hf) hord hin
  have hmem (s : CellRange) :
      s ∈ ((g.joined r).regions.filter fun s => r.contains s.minRow s.minCol) ↔
        r.isSingle = false ∧ s = r := by
    rw [List.mem_filter, hlayout.mem_regions (h.indexed_joined hf hord hin),
      h.mem_joined_apart hord hapart]
    constructor
    · intro hs
      rcases hs with ⟨hs | hs, hc⟩
      · rw [contains_first_eq_false (h.ordered s hs) (hapart s hs)] at hc
        contradiction
      · exact hs
    · intro hs
      obtain ⟨hproper, rfl⟩ := hs
      exact ⟨.inr ⟨hproper, rfl⟩, hord.contains_first⟩
  cases hsingle : r.isSingle with
  | true =>
    have hnone : ∀ s ∈ (g.joined r).regions, ¬r.contains s.minRow s.minCol = true := by
      intro s hs hc
      have hstarts := (hmem s).mp (List.mem_filter.mpr ⟨hs, hc⟩)
      rw [hsingle] at hstarts
      exact absurd hstarts.1 (by decide)
    rw [List.filter_eq_nil_iff.mpr hnone]
    rfl
  | false =>
    have hperm : ((g.joined r).regions.filter fun s => r.contains s.minRow s.minCol).Perm [r] := by
      rw [List.perm_ext_iff_of_nodup ((g.joined r).regions_nodup.filter _) (List.nodup_singleton r)]
      intro s
      rw [hmem, hsingle, List.mem_singleton, and_iff_right rfl]
    exact hperm.length_eq

/-- A merge of blank cells is undone by a split. -/
theorem dissolve_joined
    (hblank : ∀ row col, r.Clears row col → (g.cellAt row col).content = Cell.empty.content) :
    (g.joined r).dissolve
      ((g.joined r).regions.filter fun s => r.contains s.minRow s.minCol) = g := by
  have hi := h.indexed hf
  have hi' := h.indexed_joined hf hord hin
  have hjoined := h.joined hi hord hin
  have hgone : ∀ s ∈ (g.joined r).regions.filter fun s => r.contains s.minRow s.minCol,
      s ∈ r.joined {s | s ∈ g.regions} :=
    fun s hs => (hjoined.mem_regions hi').mp (List.mem_filter.mp hs).1
  have hsplit := hjoined.split (r := r) hi'
  rw [h.joined_starting hord hapart] at hsplit
  refine hsplit.ext_content h (by simp) fun row col => ?_
  rw [hjoined.content_dissolve hgone, h.content_joined hi hord hin]
  split
  next hclears => exact (hblank row col hclears).symm
  next => rfl

end Layout

/-- A split of a reachable grid counts the regions that start in the rectangle, and what it makes of
the regions and the cells determines the new grid. It undoes a merge of the same rectangle where
that has met no region and has cleared nothing. -/
theorem reachable_split (h : Reachable g) (hord : r.Ordered)
    (hin : r.maxRow < g.rows ∧ r.maxCol < g.cols) :
    (∃ g', g.split r = .ok (g', g.regions.countP fun s => r.contains s.minRow s.minCol) ∧
      SplitUp g r g' ∧ ∀ other, SplitUp g r other → other = g') ∧
    ((∀ s ∈ g.regions, ¬s.Meets r) →
      (∀ row col, r.contains row col = true → r.startsAt row col = false →
        (g.cellAt row col).text = "" ∧ (g.cellAt row col).style = .unset) →
      (g.merge r >>= fun g => g.split r) = .ok (g, if r.isSingle then 0 else 1)) := by
  have hlast : ∀ axis, r.last axis < g.lineCount axis := (Axis.forall_iff .row).mpr hin
  constructor
  · have hsplit := h.layout.splitUp (r := r) h.fits
    refine ⟨_, (split_eq_ok_iff hord).mpr ⟨hlast, rfl, ?_⟩, hsplit,
      fun other ho => ho.unique hsplit⟩
    exact List.countP_eq_length_filter
  · intro hapart hblank
    have hcontent : ∀ row col, r.Clears row col →
        (g.cellAt row col).content = Cell.empty.content := by
      intro row col hclears
      obtain ⟨htext, hstyle⟩ := hblank row col hclears.1 hclears.2
      rw [Cell.content, htext, hstyle]
      rfl
    rw [bind_eq_ok]
    refine ⟨g.joined r, (merge_eq_ok_iff_joined hord).mpr ⟨hlast, rfl⟩, ?_⟩
    rw [split_eq_ok_iff hord, h.layout.dissolve_joined hord hapart h.fits hlast hcontent,
      h.layout.length_joined_starting hord hapart h.fits hlast]
    exact ⟨by simpa using hlast, rfl, rfl⟩

theorem reachable_split_reaching :
    let g := (((Grid.blank 3 4).after (.merge 0 0 1 1)).after (.merge 1 2 2 3)).after
      (.setText 0 0 "head")
    let r := CellRange.ofCorners 0 0 1 2
    let s := CellRange.ofCorners 2 0 2 1
    (∃ g', g.split r = .ok (g', 2) ∧
      SplitUp g r g' ∧ ∀ other, SplitUp g r other → other = g') ∧
    (g.merge s >>= fun g => g.split s) = .ok (g, 1) := by
  intro g r s
  have hg : Reachable g := by
    refine .edit _ (.edit _ (.edit _ (.blank 3 4 ?_) ?_) ?_) ?_ <;> decide
  have hr : r.Ordered := CellRange.ofCorners_ordered 0 0 1 2
  have hs : s.Ordered := CellRange.ofCorners_ordered 2 0 2 1
  refine ⟨(reachable_split hg hr (by decide)).1,
    (reachable_split hg hs (by decide)).2 ?_ ?_⟩
  · have hmeets : ∀ t ∈ g.regions, t.intersects s = false := by decide
    intro t ht
    rw [CellRange.meets_iff_intersects (hg.layout.ordered t ht) hs, hmeets t ht]
    decide
  · intro row col hc hstarts
    have hcell : row = 2 ∧ col = 1 := by
      simp only [s, CellRange.contains_iff, ← Bool.not_eq_true, CellRange.startsAt_iff,
        CellRange.ofCorners] at hc hstarts
      omega
    rw [hcell.1, hcell.2]
    decide

end Splitting

end Grid
end LatexTable
