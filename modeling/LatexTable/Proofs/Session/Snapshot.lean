import LatexTable.Proofs.Document.Merges
import LatexTable.Proofs.Document.Styles
import LatexTable.Proofs.Session.Reachable
/-!
The snapshot of a session is a document that gives the session back. Its texts fill a grid without
regions; its merges lay the regions out again, and its styles make every cell what it was.
-/
namespace LatexTable
open Result

namespace CellRange

variable {r : CellRange}

/-- The place and the size of a rectangle, as a document lists them. -/
def mergeSpec (r : CellRange) : MergeSpec := ⟨r.minRow, r.minCol, r.rowCount, r.colCount⟩

theorem bound_mergeSpec (hr : r.Ordered) (axis : Axis) :
    r.mergeSpec.bound axis = r.last axis + 1 := by
  have hle := hr axis
  cases axis <;>
    simp only [MergeSpec.bound, mergeSpec, rowCount, colCount, first, last] at hle ⊢ <;> omega

theorem rectangle_mergeSpec (hr : r.Ordered) : r.mergeSpec.rectangle = r := by
  rw [MergeSpec.rectangle, bound_mergeSpec hr, bound_mergeSpec hr]
  rfl

end CellRange

namespace Grid

variable {g : Grid} {R : Set CellRange} {row col : Nat}

/-- The texts of all cells, row by row. -/
def texts (g : Grid) : List (List String) := g.rowList.map (List.map Cell.text)

theorem length_texts : g.texts.length = g.rows := by simp [texts, rowList]

theorem widest_texts (hpos : 0 < g.rows) : widest g.texts = g.cols := by
  apply widest_eq
  · rw [← List.length_pos_iff, length_texts]
    exact hpos
  · simp [texts, rowList]

theorem text_texts (hr : row < g.rows) (hc : col < g.cols) :
    ((g.texts[row]?.getD [])[col]?).getD "" = (g.cellAt row col).text := by
  simp [texts, rowList, hr, hc]

/-- The grid of the texts of another one. -/
def plain (g : Grid) : Grid := ofTextsIn g.rows g.cols g.texts

theorem cellAt_plain (hr : row < g.rows) (hc : col < g.cols) :
    g.plain.cellAt row col = .ofText (g.cellAt row col).text := by
  rw [plain, ofTextsIn_eq_tabulate, cellAt_tabulate hr hc, text_texts hr hc]

/-- The styles of the visible cells that have one. -/
def styleSpecs (g : Grid) : List StyleSpec :=
  g.places.filterMap fun (row, col) =>
    let c := g.cellAt row col
    if c.hidden || c.style.isUnset then none else some ⟨row, col, c.style⟩

theorem mem_styleSpecs {s : StyleSpec} :
    s ∈ g.styleSpecs ↔ (s.row < g.rows ∧ s.col < g.cols) ∧
      (g.cellAt s.row s.col).hidden = false ∧ s.style = (g.cellAt s.row s.col).style ∧
        s.style ≠ .unset := by
  obtain ⟨row, col, style⟩ := s
  simp only [styleSpecs, List.mem_filterMap, Prod.exists, mem_places, Option.ite_none_left_eq_some,
    Option.some.injEq, StyleSpec.mk.injEq, Bool.or_eq_true, not_or, Bool.not_eq_true,
    CellStyle.isUnset, decide_eq_false_iff_not]
  constructor
  · rintro ⟨row, col, hin, ⟨hv, hset⟩, rfl, rfl, rfl⟩
    exact ⟨hin, hv, rfl, hset⟩
  · rintro ⟨hin, hv, rfl, hset⟩
    exact ⟨row, col, hin, ⟨hv, hset⟩, rfl, rfl, rfl⟩

namespace Layout

theorem plain (h : Layout g R) : Layout g.plain ∅ :=
  ofTextsIn (h.pos .row) (h.pos .column) g.texts

theorem apart_regions (h : Layout g R) (hf : g.Fits) : g.plain.Apart g.regions where
  ordered := fun r hr => h.ordered r ((h.mem_regions (h.indexed hf)).mp hr)
  inside := fun r hr axis => by
    have hin := h.inside r ((h.mem_regions (h.indexed hf)).mp hr) axis
    cases axis <;> exact hin
  apart := by
    refine g.regions_nodup.imp_of_mem fun hr hs hne => ?_
    rw [h.mem_regions (h.indexed hf)] at hr hs
    by_contra hmeet
    exact hne (h.disjoint _ hr _ hs ((Bool.not_eq_false _).mp hmeet))

/-- Texts and regions make every cell but its style. -/
theorem cellAt_merged_plain (h : Layout g R) (hf : g.Fits) (hr : row < g.rows) (hc : col < g.cols) :
    (g.plain.merged g.regions).cellAt row col = { g.cellAt row col with style := .unset } := by
  have hapart := h.apart_regions hf
  have hspans {c : Cell} {m n : Nat} (hv : c.hidden = false) (hrow : c.rowSpan = m)
      (hcol : c.colSpan = n) :
      { Cell.ofText c.text with rowSpan := m, colSpan := n } = { c with style := .unset } := by
    subst hrow hcol
    cases c
    simp_all [Cell.ofText, CellStyle.unset]
  rw [hapart.cellAt_merged]
  rcases owner_or_shadow_or_free R row col with ⟨r, hrR, hs⟩ | ⟨r, hrR, hrc, hs⟩ | hfree
  · have hrc := CellRange.contains_of_startsAt (h.ordered r hrR) hs
    obtain ⟨hv, hspan⟩ := h.owner r hrR row col hs
    rw [hapart.mergedCell_of_contains ((h.mem_regions (h.indexed hf)).mpr hrR) hrc, if_pos hs,
      cellAt_plain hr hc]
    exact hspans hv (hspan .row) (hspan .column)
  · rw [hapart.mergedCell_of_contains ((h.mem_regions (h.indexed hf)).mpr hrR) hrc, hs,
      h.shadow r hrR row col hrc hs]
    rfl
  · obtain ⟨hv, hspan⟩ := h.free row col hfree
    rw [mergedCell_of_not_contains fun r hrR => hfree r ((h.mem_regions (h.indexed hf)).mp hrR),
      cellAt_plain hr hc]
    exact hspans hv (hspan .row) (hspan .column)

theorem getD_last?_styleSpecs (h : Layout g R) (hr : row < g.rows) (hc : col < g.cols) :
    (StyleSpec.last? g.styleSpecs row col).getD .unset = (g.cellAt row col).style := by
  cases hlast : StyleSpec.last? g.styleSpecs row col with
  | some style => exact (mem_styleSpecs.mp (StyleSpec.exists_of_last? hlast)).2.2.1
  | none =>
    -- a cell without an entry is a shadow or has no style
    by_contra hset
    have hv : (g.cellAt row col).hidden = false := by
      by_contra hh
      rw [h.eq_shadow_of_hidden ((Bool.not_eq_false _).mp hh)] at hset
      exact hset rfl
    have hmem : (⟨row, col, (g.cellAt row col).style⟩ : StyleSpec) ∈ g.styleSpecs :=
      mem_styleSpecs.mpr ⟨⟨hr, hc⟩, hv, rfl, fun heq => hset heq.symm⟩
    exact StyleSpec.last?_eq_none.mp hlast _ hmem ⟨rfl, rfl⟩

/-- Texts, regions and styles make the grid. -/
theorem restyled_merged_plain (h : Layout g R) (hf : g.Fits) :
    (g.plain.merged g.regions).restyled g.styleSpecs = g := by
  refine restyled_full.ext h.full rfl rfl fun row col (hr : row < g.rows) (hc : col < g.cols) => ?_
  rw [cellAt_restyled (g := g.plain.merged g.regions) hr hc, h.cellAt_merged_plain hf hr hc]
  simp only [h.getD_last?_styleSpecs hr hc]

end Layout
end Grid

namespace Session

variable {s t : Session}

namespace Consistent

theorem foldlM_addMerge_regions (h : Consistent s) :
    (s.grid.regions.map CellRange.mergeSpec).foldlM TableDocument.addMerge ([], s.grid.plain) =
      .ok (s.grid.regions, s.grid.plain.merged s.grid.regions) := by
  have hlayout := h.grid.layout
  have hrectangles : (s.grid.regions.map CellRange.mergeSpec).map MergeSpec.rectangle =
      s.grid.regions := by
    rw [List.map_map]
    exact (List.map_congr_left fun r hr =>
      CellRange.rectangle_mergeSpec (hlayout.ordered r hr)).trans s.grid.regions.map_id
  refine (TableDocument.foldlM_addMerge_eq_ok_iff hlayout.plain).mpr ⟨?_, ?_, ?_⟩
  · simp only [List.forall_mem_map]
    intro r hr axis
    rw [CellRange.bound_mergeSpec (hlayout.ordered r hr)]
    exact (hlayout.inside r hr axis).trans_le (hlayout.lineCount_le h.grid.fits axis)
  · rw [hrectangles]
    exact hlayout.apart_regions h.grid.fits
  · rw [hrectangles]

theorem foldlM_addStyle_styleSpecs (h : Consistent s) :
    s.grid.styleSpecs.foldlM TableDocument.addStyle (s.grid.plain.merged s.grid.regions) =
      .ok s.grid := by
  refine (TableDocument.foldlM_addStyle_eq_ok_iff Grid.merged_full).mpr ⟨?_, ?_⟩
  · intro style hstyle
    obtain ⟨hin, hv, -⟩ := Grid.mem_styleSpecs.mp hstyle
    refine ⟨hin, ?_⟩
    rw [h.grid.layout.cellAt_merged_plain h.grid.fits hin.1 hin.2]
    exact hv
  · exact (h.grid.layout.restyled_merged_plain h.grid.fits).symm

theorem ofParts_eq (h : Consistent s) :
    Session.ofParts s.grid s.columns = .ok { grid := s.grid, columns := s.columns } :=
  ofParts_eq_ok_iff.mpr ⟨⟨h.columns, h.grid.layout.validate h.grid.fits⟩, rfl⟩

/-- A session is its snapshot with a new selection. -/
theorem toSession_ofSession (h : Consistent s) :
    (TableDocument.ofSession s).toSession = .ok { s with selection := {} } := by
  have hrows := h.rows_pos
  have hcols := h.cols_pos
  have hheight : (TableDocument.ofSession s).height = s.grid.rows := by
    show max s.grid.texts.length 1 = s.grid.rows
    rw [Grid.length_texts, max_eq_left hrows]
  have hwidth : (TableDocument.ofSession s).width = s.grid.cols := by
    show max (max (Grid.widest s.grid.texts) s.columns.length) 1 = s.grid.cols
    rw [Grid.widest_texts hrows, h.columns, max_self, max_eq_left hcols]
  have hcolumns : (TableDocument.ofSession s).columns ++
      List.replicate (s.grid.cols - (TableDocument.ofSession s).columns.length) .default =
        s.columns := by
    show s.columns ++ List.replicate (s.grid.cols - s.columns.length) .default = s.columns
    rw [h.columns, Nat.sub_self, List.replicate_zero, List.append_nil]
  simp only [TableDocument.toSession, hheight, hwidth, hcolumns, bind_eq_ok, Prod.exists]
  exact ⟨_, _, h.foldlM_addMerge_regions, _, h.foldlM_addStyle_styleSpecs, _, h.ofParts_eq, rfl⟩

end Consistent

/-- After every run the snapshot can be restored, and all but the selection comes back. -/
theorem snapshot_restored (hs : Start s) (hrun : Run s t) :
    ∃ u, (TableDocument.ofSession t).toSession = .ok u ∧
      (u.grid = t.grid ∧ u.columns = t.columns ∧ u.dialect = t.dialect ∧ u.options = t.options) ∧
      u.selection = {} ∧ ∀ dialect, u.latexAs dialect = t.latexAs dialect :=
  ⟨_, (hs.consistent.run hrun).toSession_ofSession, ⟨rfl, rfl, rfl, rfl⟩, rfl, fun _ => rfl⟩

theorem snapshot_restored_toggled :
    let s := blank 3 3
    let t := (((((s.after (.beginSelection 1 1)).after (.extendSelection 2 2)).after
      .mergeSelection).after (.setText 1 1 "Block")).after (.applyStyle .toggleItalic)).after
        (.applyStyle .toggleItalic)
    ∃ u, (TableDocument.ofSession t).toSession = .ok u ∧
      (u.grid = t.grid ∧ u.columns = t.columns ∧ u.dialect = t.dialect ∧ u.options = t.options) ∧
      u.selection = {} ∧ ∀ dialect, u.latexAs dialect = t.latexAs dialect := by
  refine snapshot_restored (.blank 3 3 ?_) (.edit _ (.edit _ (.edit _ (.edit _ (.edit _ (.edit _
    .nil ?_) ?_) ?_) ?_) ?_) ?_) <;> decide

end Session
end LatexTable
