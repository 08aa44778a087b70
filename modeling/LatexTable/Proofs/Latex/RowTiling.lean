import LatexTable.Proofs.Grid.Reachable
import LatexTable.Proofs.Latex.UnitStart
import Mathlib.Algebra.Ring.Nat
/-!
The units of a row tile it: one for every visible cell, one for every region that goes on through
the row, side by side from the first column to the last.
-/
namespace LatexTable
open Latex

namespace RowUnit

/-- What the unit holds: a cell, or the fill alone where a region goes on. -/
def content : RowUnit → String
  | .visible _ c => c.body
  | .continuation _ owner => owner.fill?.getD ""

theorem width_pos (u : RowUnit) : 0 < u.width := by
  unfold width
  omega

end RowUnit

namespace Grid

variable {g : Grid} {R : Set CellRange} {r : CellRange} {row col : Nat} {u : RowUnit}

/-- One unit for every visible cell of a row. -/
def visibleUnits (g : Grid) (row : Nat) : List RowUnit :=
  ((List.range g.cols).filter fun col => !(g.cellAt row col).hidden).map fun col =>
    .visible col (g.cellAt row col)

/-- One unit for every region that began in an earlier row and has the row. -/
def continuationUnits (g : Grid) (row : Nat) : List RowUnit :=
  (g.regions.filter fun r => r.minRow < row && row ≤ r.maxRow).map fun r =>
    .continuation r.minCol (g.cellAt r.minRow r.minCol)

/-- The columns of a row that no region covers. -/
def freeColumns (g : Grid) (row : Nat) : List Nat :=
  (List.range g.cols).filter fun col => !g.regions.any (·.contains row col)

namespace Layout

/-- The walk stops at left edges only. -/
theorem leftEdge_of_mem (h : Layout g R) (hf : g.Fits) (hr : row < g.rows)
    (hedge : LeftEdge R row col) :
    ∀ p ∈ g.unitStartsFrom row col,
      (col ≤ p.1 ∧ p.1 < g.cols) ∧ LeftEdge R row p.1 ∧ p.2 = g.unitStart row p.1 := by
  refine h.edge_induction hf hr (P := fun col => ∀ p ∈ g.unitStartsFrom row col,
    (col ≤ p.1 ∧ p.1 < g.cols) ∧ LeftEdge R row p.1 ∧ p.2 = g.unitStart row p.1) ?_ ?_ col hedge
  · intro col hc
    simp [unitStartsFrom_of_le hc]
  · intro col hc hedge ih
    rw [h.unitStartsFrom_edge hf hr hc hedge]
    rintro p (_ | ⟨_, hp⟩)
    · exact ⟨⟨le_rfl, hc⟩, hedge, rfl⟩
    · obtain ⟨⟨hlo, hhi⟩, hrest⟩ := ih p hp
      exact ⟨⟨by omega, hhi⟩, hrest⟩

/-- The walk misses no left edge. -/
theorem mem_of_leftEdge (h : Layout g R) (hf : g.Fits) (hr : row < g.rows)
    (hedge : LeftEdge R row col) :
    ∀ c, col ≤ c → c < g.cols → LeftEdge R row c →
      (c, g.unitStart row c) ∈ g.unitStartsFrom row col := by
  refine h.edge_induction hf hr (P := fun col => ∀ c, col ≤ c → c < g.cols → LeftEdge R row c →
    (c, g.unitStart row c) ∈ g.unitStartsFrom row col) ?_ ?_ col hedge
  · intro col hc c hle hlt
    omega
  · intro col hc hedge ih c hle hlt hcedge
    rw [h.unitStartsFrom_edge hf hr hc hedge]
    rcases hle.eq_or_lt with rfl | hne
    · exact List.mem_cons_self
    · by_cases hin : c < col + (g.unitStart row col).width
      · exact absurd hcedge (h.not_leftEdge_within hf hr hc hedge hne hin)
      · exact List.mem_cons_of_mem _ (ih c (not_lt.mp hin) hlt hcedge)

/-- The steps of the walk lie side by side. -/
theorem flatMap_unitStartsFrom (h : Layout g R) (hf : g.Fits) (hr : row < g.rows)
    (hedge : LeftEdge R row col) :
    (g.unitStartsFrom row col).flatMap (fun p => List.range' p.1 p.2.width) =
      List.range' col (g.cols - col) := by
  refine h.edge_induction hf hr (P := fun col =>
    (g.unitStartsFrom row col).flatMap (fun p => List.range' p.1 p.2.width) =
      List.range' col (g.cols - col)) ?_ ?_ col hedge
  · intro col hc
    simp [unitStartsFrom_of_le hc, hc]
  · intro col hc hedge ih
    have hw := h.width_le hf hr hc hedge
    have hsplit : g.cols - col = (g.unitStart row col).width +
        (g.cols - (col + (g.unitStart row col).width)) := by omega
    rw [h.unitStartsFrom_edge hf hr hc hedge, List.flatMap_cons, ih, hsplit, List.range'_append_1]

theorem mem_unitStarts (h : Layout g R) (hf : g.Fits) (hr : row < g.rows) {start : UnitStart} :
    (col, start) ∈ g.unitStarts row ↔
      col < g.cols ∧ LeftEdge R row col ∧ start = g.unitStart row col := by
  constructor
  · intro hp
    obtain ⟨⟨-, hlt⟩, hrest⟩ := h.leftEdge_of_mem hf hr leftEdge_zero _ hp
    exact ⟨hlt, hrest⟩
  · rintro ⟨hlt, hedge, rfl⟩
    exact h.mem_of_leftEdge hf hr leftEdge_zero col (Nat.zero_le col) hlt hedge

/-- The units stand where the walk stops, with the widths of its steps. -/
theorem map_rowUnits (h : Layout g R) (hf : g.Fits) (hr : row < g.rows) :
    (g.rowUnits row).map (fun u => (u.col, u.width)) =
      (g.unitStarts row).map fun p => (p.1, p.2.width) := by
  rw [rowUnits, List.map_filterMap, ← List.filterMap_eq_map]
  apply List.filterMap_congr
  rintro ⟨c, start⟩ hp
  obtain ⟨hlt, hedge, rfl⟩ := (h.mem_unitStarts hf hr).mp hp
  obtain ⟨u, hu, hcol, hwidth⟩ := h.exists_unit hf hr hlt hedge
  simp [hu, hcol, hwidth]

theorem flatMap_rowUnits (h : Layout g R) (hf : g.Fits) (hr : row < g.rows) :
    (g.rowUnits row).flatMap (fun u => List.range' u.col u.width) = List.range g.cols := by
  have hmap {α : Type} (as : List α) (f : α → Nat × Nat) :
      as.flatMap (fun a => List.range' (f a).1 (f a).2) =
        (as.map f).flatMap fun q => List.range' q.1 q.2 := by rw [List.flatMap_map]
  rw [hmap _ fun u : RowUnit => (u.col, u.width), h.map_rowUnits hf hr, ← hmap]
  exact (h.flatMap_unitStartsFrom hf hr leftEdge_zero).trans List.range_eq_range'.symm

theorem mem_rowUnits (h : Layout g R) (hf : g.Fits) (hr : row < g.rows) :
    u ∈ g.rowUnits row ↔ ∃ col, col < g.cols ∧ LeftEdge R row col ∧
      (g.unitStart row col).unit? col = some u := by
  simp only [rowUnits, List.mem_filterMap, Prod.exists, h.mem_unitStarts hf hr]
  constructor
  · rintro ⟨c, start, ⟨hlt, hedge, rfl⟩, hu⟩
    exact ⟨c, hlt, hedge, hu⟩
  · rintro ⟨c, hlt, hedge, hu⟩
    exact ⟨c, _, ⟨hlt, hedge, rfl⟩, hu⟩

/-- Every unit is the one of a visible cell or the one of a region that goes on. -/
theorem mem_rowUnits_iff (h : Layout g R) (hf : g.Fits) (hr : row < g.rows) :
    u ∈ g.rowUnits row ↔ u ∈ g.visibleUnits row ∨ u ∈ g.continuationUnits row := by
  simp only [h.mem_rowUnits hf hr, visibleUnits, continuationUnits, List.mem_map, List.mem_filter,
    List.mem_range, h.mem_regions (h.indexed hf), Bool.not_eq_true', Bool.and_eq_true,
    decide_eq_true_eq]
  constructor
  · rintro ⟨c, hlt, hedge, hu⟩
    rcases h.visible_or_continues hedge with hv | ⟨r, hrR, rfl, hrow⟩
    · rw [h.unitStart_visible hr hlt hv] at hu
      exact .inl ⟨c, ⟨hlt, hv⟩, Option.some.inj hu⟩
    · rw [h.unitStart_continuation hf hrR hrow] at hu
      exact .inr ⟨r, ⟨hrR, hrow⟩, Option.some.inj hu⟩
  · rintro (⟨c, ⟨hlt, hv⟩, rfl⟩ | ⟨r, ⟨hrR, hrow⟩, rfl⟩)
    · exact ⟨c, hlt, h.leftEdge_of_visible hv, by rw [h.unitStart_visible hr hlt hv]; rfl⟩
    · exact ⟨r.minCol, (h.first_lt hrR).2, h.leftEdge_of_region hrR ⟨hrow.1.le, hrow.2⟩,
        by rw [h.unitStart_continuation hf hrR hrow]; rfl⟩

/-- Units go from left to right. -/
theorem rowUnits_sorted (h : Layout g R) (hf : g.Fits) (hr : row < g.rows) :
    (g.rowUnits row).Pairwise (·.col < ·.col) := by
  have hsorted : (List.range g.cols).Pairwise (· < ·) := List.pairwise_lt_range
  rw [← h.flatMap_rowUnits hf hr, List.pairwise_flatMap] at hsorted
  have hfirst (u : RowUnit) : u.col ∈ List.range' u.col u.width :=
    List.mem_range'_1.mpr ⟨le_rfl, by have := u.width_pos; omega⟩
  exact hsorted.2.imp fun hlt => hlt _ (hfirst _) _ (hfirst _)

theorem visibleUnits_nodup : (g.visibleUnits row).Nodup := by
  apply List.Nodup.map _ (List.nodup_range.filter _)
  intro c c' heq
  injection heq

theorem continuationUnits_nodup (h : Layout g R) (hf : g.Fits) :
    (g.continuationUnits row).Nodup := by
  apply List.Nodup.map_on _ (g.regions_nodup.filter _)
  simp only [List.mem_filter, h.mem_regions (h.indexed hf), Bool.and_eq_true, decide_eq_true_eq]
  rintro r ⟨hrR, hrow⟩ s ⟨hsR, hsrow⟩ heq
  injection heq with hcol
  have hrc := (h.ordered r hrR).contains_edge ⟨hrow.1.le, hrow.2⟩
  have hsc := (h.ordered s hsR).contains_edge ⟨hsrow.1.le, hsrow.2⟩
  exact h.eq_of_contains hrR hsR hrc (hcol ▸ hsc)

theorem rowUnits_perm (h : Layout g R) (hf : g.Fits) (hr : row < g.rows) :
    (g.rowUnits row).Perm (g.visibleUnits row ++ g.continuationUnits row) := by
  rw [List.perm_ext_iff_of_nodup]
  · intro u
    rw [h.mem_rowUnits_iff hf hr, List.mem_append]
  · exact (h.rowUnits_sorted hf hr).imp fun hlt heq => hlt.ne (congrArg RowUnit.col heq)
  · apply visibleUnits_nodup.append (h.continuationUnits_nodup hf)
    intro u hv hc
    obtain ⟨c, -, rfl⟩ := List.mem_map.mp hv
    obtain ⟨r, -, hr⟩ := List.mem_map.mp hc
    cases hr

theorem mem_freeColumns (h : Layout g R) (hf : g.Fits) :
    col ∈ g.freeColumns row ↔ col < g.cols ∧ ∀ r ∈ R, r.contains row col = false := by
  simp [freeColumns, h.mem_regions (h.indexed hf)]

theorem mem_meeting_row (h : Layout g R) (hf : g.Fits) :
    r ∈ g.meeting .row row ↔ r ∈ R ∧ r.minRow ≤ row ∧ row ≤ r.maxRow := by
  rw [meeting, List.mem_filter, h.mem_regions (h.indexed hf), CellRange.hasLine_iff]
  rfl

/-- The units of a row are its regions, with their widths, and its free cells. -/
theorem places_perm (h : Layout g R) (hf : g.Fits) (hr : row < g.rows) :
    ((g.rowUnits row).map fun u => (u.col, u.width)).Perm
      (((g.meeting .row row).map fun r => (r.minCol, r.colCount)) ++
        (g.freeColumns row).map fun col => (col, 1)) := by
  have hcontains {r : CellRange} (hrow : r ∈ g.meeting .row row) :
      r ∈ R ∧ r.contains row r.minCol = true := by
    obtain ⟨hrR, hrow⟩ := (h.mem_meeting_row hf).mp hrow
    exact ⟨hrR, (h.ordered r hrR).contains_edge hrow⟩
  rw [List.perm_ext_iff_of_nodup]
  · rintro ⟨c, w⟩
    simp only [h.map_rowUnits hf hr, List.mem_append, List.mem_map, Prod.exists, Prod.mk.injEq,
      h.mem_unitStarts hf hr, h.mem_meeting_row hf, h.mem_freeColumns hf]
    constructor
    · rintro ⟨c, start, ⟨hlt, hedge, rfl⟩, rfl, rfl⟩
      rcases h.region_or_free hf hr hlt hedge with ⟨r, hrR, hrc, hcol, hw⟩ | ⟨hfree, hw⟩
      · exact .inl ⟨r, ⟨hrR, (CellRange.contains_iff.mp hrc).1⟩, hcol, hw.symm⟩
      · exact .inr ⟨c, ⟨hlt, hfree⟩, rfl, hw.symm⟩
    · rintro (⟨r, ⟨hrR, hrow⟩, rfl, rfl⟩ | ⟨c, ⟨hlt, hfree⟩, rfl, rfl⟩)
      · exact ⟨r.minCol, _, ⟨(h.first_lt hrR).2, h.leftEdge_of_region hrR hrow, rfl⟩, rfl,
          h.width_region hf hrR hrow⟩
      · have hedge : LeftEdge R row c := fun r hrR hrc => by simp [hfree r hrR] at hrc
        exact ⟨c, _, ⟨hlt, hedge, rfl⟩, rfl, h.width_free hr hlt hfree⟩
  · apply List.Nodup.of_map Prod.fst
    rw [List.map_map]
    exact List.pairwise_map.mpr ((h.rowUnits_sorted hf hr).imp LT.lt.ne)
  · apply List.Nodup.append
    · apply List.Nodup.map_on _ (g.regions_nodup.filter _)
      intro r hrow s hsrow heq
      obtain ⟨hrR, hrc⟩ := hcontains hrow
      obtain ⟨hsR, hsc⟩ := hcontains hsrow
      rw [← show r.minCol = s.minCol from congrArg Prod.fst heq] at hsc
      exact h.eq_of_contains hrR hsR hrc hsc
    · exact (List.nodup_range.filter _).map fun c c' heq => congrArg Prod.fst heq
    · intro p hp hp'
      obtain ⟨r, hrow, rfl⟩ := List.mem_map.mp hp
      obtain ⟨c, hc, heq⟩ := List.mem_map.mp hp'
      obtain ⟨hrR, hrc⟩ := hcontains hrow
      obtain rfl : c = r.minCol := congrArg Prod.fst heq
      rw [((h.mem_freeColumns hf).mp hc).2 r hrR] at hrc
      contradiction

theorem sum_widths (h : Layout g R) (hf : g.Fits) (hr : row < g.rows) :
    ((g.rowUnits row).map RowUnit.width).sum = g.cols := by
  have hlength := congrArg List.length (h.flatMap_rowUnits hf hr)
  simpa [List.length_flatMap, Function.comp_def] using hlength

theorem sum_colCount (rs : List CellRange) :
    (rs.map CellRange.colCount).sum = (rs.map fun r => r.colCount - 1).sum + rs.length := by
  induction rs with
  | nil => rfl
  | cons r rs ih =>
    simp only [List.map_cons, List.sum_cons, List.length_cons, ih, CellRange.colCount]
    omega

/-- A region saves the row all its columns but one. -/
theorem length_rowUnits (h : Layout g R) (hf : g.Fits) (hr : row < g.rows) :
    (g.rowUnits row).length + ((g.meeting .row row).map fun r => r.colCount - 1).sum = g.cols := by
  have hperm := h.places_perm hf hr
  have hlength : (g.rowUnits row).length =
      (g.meeting .row row).length + (g.freeColumns row).length := by
    simpa using hperm.length_eq
  have hsum : ((g.rowUnits row).map RowUnit.width).sum =
      ((g.meeting .row row).map CellRange.colCount).sum + (g.freeColumns row).length := by
    simpa [Function.comp_def] using (hperm.map Prod.snd).sum_nat
  have hwidths := h.sum_widths hf hr
  have hcount := sum_colCount (g.meeting .row row)
  omega

end Layout

/-- What the units of a row are, where they stand and how they are written. -/
structure RowTiling (g : Grid) (t : TabularColumns) (row : Nat) : Prop where
  units : (g.rowUnits row).Perm (g.visibleUnits row ++ g.continuationUnits row)
  sorted : (g.rowUnits row).Pairwise (·.col < ·.col)
  tiles : (g.rowUnits row).flatMap (fun u => List.range' u.col u.width) = List.range g.cols
  blank_or_fill : ∀ u ∈ g.continuationUnits row, u.content = "" ∨
    ∃ color, u.cell.style.background = some color ∧ u.content = "\\cellcolor" ++ color.arguments
  wide : ∀ u ∈ g.rowUnits row, 1 < u.width → ∃ spec, t.unitText u =
    "\\multicolumn" ++ braced (toString u.width) ++ braced spec ++ braced u.content
  narrow : ∀ u ∈ g.rowUnits row, u.width = 1 → t.unitText u = u.content ∨ ∃ spec, t.unitText u =
    "\\multicolumn" ++ braced (toString 1) ++ braced spec ++ braced u.content
  length : (g.rowUnits row).length + ((g.meeting .row row).map fun r => r.colCount - 1).sum = g.cols
  no_recovery : ∀ start ∈ (g.unitStarts row).map Prod.snd,
    start ≠ .inside ∧ start ≠ .unowned ∧ start ≠ .outside

theorem content_continuation (owner : Cell) :
    (RowUnit.continuation col owner).content = "" ∨
      ∃ color, owner.style.background = some color ∧
        (RowUnit.continuation col owner).content = "\\cellcolor" ++ color.arguments := by
  cases hb : owner.style.background with
  | none => exact .inl (by simp [RowUnit.content, Cell.fill?, hb])
  | some color => exact .inr ⟨color, rfl, by simp [RowUnit.content, Cell.fill?, hb]⟩

/-- A unit stands in a `\multicolumn` of its width, or bare. -/
theorem unitText_cases (t : TabularColumns) (u : RowUnit) :
    (u.width ≤ 1 ∧ t.unitText u = u.content) ∨
      (1 < u.width ∨ t.overridesAlignment u.col u.cell.style = true) ∧
        t.unitText u = "\\multicolumn" ++ braced (toString u.width) ++
          braced (t.unitSpec u.col u.width u.cell.style) ++ braced u.content := by
  cases u with
  | visible col c =>
    by_cases hown : (1 < (RowUnit.visible col c).width || t.overridesAlignment col c.style) = true
    · have hguard := hown
      rw [Bool.or_eq_true, decide_eq_true_eq] at hguard
      exact .inr ⟨hguard, if_pos hown⟩
    · simp only [Bool.or_eq_true, decide_eq_true_eq, not_or, not_lt] at hown
      exact .inl ⟨hown.1, by simp [TabularColumns.unitText, hown, RowUnit.content]⟩
  | continuation col owner =>
    by_cases hwide : 1 < (RowUnit.continuation col owner).width
    · exact .inr ⟨.inl hwide, if_pos hwide⟩
    · exact .inl ⟨not_lt.mp hwide, if_neg hwide⟩

theorem Layout.no_recovery (h : Layout g R) (hf : g.Fits) (hr : row < g.rows) :
    ∀ start ∈ (g.unitStarts row).map Prod.snd,
      start ≠ .inside ∧ start ≠ .unowned ∧ start ≠ .outside := by
  rintro _ hstart
  obtain ⟨⟨c, start⟩, hp, rfl⟩ := List.mem_map.mp hstart
  obtain ⟨hlt, hedge, rfl⟩ := (h.mem_unitStarts hf hr).mp hp
  rcases h.visible_or_continues hedge with hv | ⟨r, hrR, rfl, hrow⟩
  · simp [h.unitStart_visible hr hlt hv]
  · simp [h.unitStart_continuation hf hrR hrow]

/-- In a reachable grid the units tile every row, whatever the columns and their lines. -/
theorem reachable_row_tiled (h : g.Reachable) (hr : row < g.rows) (t : TabularColumns) :
    g.RowTiling t row where
  units := h.layout.rowUnits_perm h.fits hr
  sorted := h.layout.rowUnits_sorted h.fits hr
  tiles := h.layout.flatMap_rowUnits h.fits hr
  blank_or_fill := by
    intro u hu
    obtain ⟨r, -, rfl⟩ := List.mem_map.mp hu
    exact content_continuation _
  wide := by
    intro u _ hwide
    rcases unitText_cases t u with ⟨hle, -⟩ | ⟨-, htext⟩
    · omega
    · exact ⟨_, htext⟩
  narrow := by
    intro u _ hone
    rcases unitText_cases t u with ⟨-, htext⟩ | ⟨-, htext⟩
    · exact .inl htext
    · exact .inr ⟨_, hone ▸ htext⟩
  length := h.layout.length_rowUnits h.fits hr
  no_recovery := h.layout.no_recovery h.fits hr

theorem reachable_row_tiled_beside :
    (((Grid.blank 3 4).after (.merge 0 0 2 1)).after (.merge 1 2 2 3)).RowTiling
      ⟨List.replicate 4 .centered, true⟩ 2 := by
  refine reachable_row_tiled (.edit _ (.edit _ (.blank 3 4 ?_) ?_) ?_) ?_ _ <;> decide

end Grid
end LatexTable
