import LatexTable.Proofs.Grid.Agreement
import LatexTable.Proofs.Latex.UnitReader
import LatexTable.Proofs.Latex.UnitStart
/-!
Two grids with the same unit texts in every row have the same regions and texts. Row by row, from
left to right: the regions that go on are known from the rows above, so the walks through both grids
stop at the same columns, and what begins there is read from its text.
-/
namespace LatexTable.Grid
open Text Latex

variable {g g' : Grid} {R S : Set CellRange} {r : CellRange} {row col : Nat} {t : TabularColumns}

/-- The units of a row from a column on. -/
def unitsFrom (g : Grid) (row col : Nat) : List RowUnit :=
  (g.unitStartsFrom row col).filterMap fun p => p.2.unit? p.1

namespace Layout

theorem unitsFrom_visible (h : Layout g R) (hf : g.Fits) (hr : row < g.rows) (hc : col < g.cols)
    (hedge : LeftEdge R row col) (hv : (g.cellAt row col).hidden = false) :
    g.unitsFrom row col = .visible col (g.cellAt row col) ::
      g.unitsFrom row (col + (g.unitStart row col).width) := by
  rw [unitsFrom, h.unitStartsFrom_edge hf hr hc hedge, List.filterMap_cons,
    h.unitStart_visible hr hc hv]
  rfl

theorem unitsFrom_continuation (h : Layout g R) (hf : g.Fits) (hr : row < g.rows) (hrR : r ∈ R)
    (hrow : r.minRow < row ∧ row ≤ r.maxRow) (hedge : LeftEdge R row r.minCol) :
    ∃ u, g.unitsFrom row r.minCol = u :: g.unitsFrom row (r.minCol + r.colCount) := by
  rw [unitsFrom, h.unitStartsFrom_edge hf hr (h.first_lt hrR).2 hedge, List.filterMap_cons,
    h.width_region hf hrR ⟨hrow.1.le, hrow.2⟩, h.unitStart_continuation hf hrR hrow]
  exact ⟨_, rfl⟩

/-- A region that begins in a row begins at a left edge, with a visible cell. -/
theorem start_of_mem (h : Layout g R) (hrR : r ∈ R) :
    LeftEdge R r.minRow r.minCol ∧ (g.cellAt r.minRow r.minCol).hidden = false ∧
      r.minCol < g.cols := by
  have hv := (h.owner r hrR _ _ r.startsAt_first).1
  exact ⟨h.leftEdge_of_visible hv, hv, (h.first_lt hrR).2⟩

end Layout

theorem same_spans (h : Layout g R) (h' : Layout g' S)
    (hcolumns : digits (max (g.cellAt row col).colSpan 1) =
      digits (max (g'.cellAt row col).colSpan 1))
    (hrows : digits (max (g.cellAt row col).rowSpan 1) =
      digits (max (g'.cellAt row col).rowSpan 1)) :
    ∀ axis, (g.cellAt row col).span axis = (g'.cellAt row col).span axis := by
  intro axis
  have hpos := h.span_pos row col axis
  have hpos' := h'.span_pos row col axis
  have hc := digits_injective hcolumns
  have hr := digits_injective hrows
  cases axis <;> simp only [Cell.span] at * <;> omega

/-- What two grids have in common in a row from a column on. -/
structure RowAgrees (g g' : Grid) (R S : Set CellRange) (row col : Nat) : Prop where
  regions : ∀ r, r.minRow = row → col ≤ r.minCol → (r ∈ R ↔ r ∈ S)
  texts : ∀ c, col ≤ c → c < g.cols → (g.cellAt row c).hidden = false →
    trimmed (g.cellAt row c).text.toList = trimmed (g'.cellAt row c).text.toList

section Walk

variable (h : Layout g R) (h' : Layout g' S) (hf : g.Fits) (hf' : g'.Fits)
  (hcols : g.cols = g'.cols) (hr : row < g.rows) (hr' : row < g'.rows)
include h h' hf hf' hcols hr hr'

omit hf hf' hr hr' in
theorem RowAgrees.of_le (hc : g.cols ≤ col) : RowAgrees g g' R S row col := by
  constructor
  · rintro r rfl hle
    constructor
    · intro hrR
      have hlt := (h.start_of_mem hrR).2.2
      omega
    · intro hrS
      have hlt := (h'.start_of_mem hrS).2.2
      omega
  · intro c hle hlt
    omega

/-- A step of the same width in both walks, at whose column the grids agree. -/
theorem RowAgrees.step (hc : col < g.cols) (hedge : LeftEdge R row col)
    (hedge' : LeftEdge S row col)
    (hwidth : (g.unitStart row col).width = (g'.unitStart row col).width)
    (hregion : ∀ r, r.minRow = row → r.minCol = col → (r ∈ R ↔ r ∈ S))
    (htext : (g.cellAt row col).hidden = false →
      trimmed (g.cellAt row col).text.toList = trimmed (g'.cellAt row col).text.toList)
    (hnext : RowAgrees g g' R S row (col + (g.unitStart row col).width)) :
    RowAgrees g g' R S row col := by
  have hc' : col < g'.cols := hcols ▸ hc
  constructor
  · rintro r rfl hle
    rcases hle.eq_or_lt with heq | hlt
    · exact hregion r rfl heq.symm
    · by_cases hin : r.minCol < col + (g.unitStart r.minRow col).width
      · constructor
        · intro hrR
          exact absurd (h.start_of_mem hrR).1 (h.not_leftEdge_within hf hr hc hedge hlt hin)
        · intro hrS
          exact absurd (h'.start_of_mem hrS).1
            (h'.not_leftEdge_within hf' hr' hc' hedge' hlt (hwidth ▸ hin))
      · exact hnext.regions r rfl (not_lt.mp hin)
  · intro c hle hlt hv
    rcases hle.eq_or_lt with rfl | hgt
    · exact htext hv
    · by_cases hin : c < col + (g.unitStart row col).width
      · exact absurd (h.leftEdge_of_visible hv) (h.not_leftEdge_within hf hr hc hedge hgt hin)
      · exact hnext.texts c (not_lt.mp hin) hlt hv

/-- Two visible cells with equal units, where the grids agree behind these units. -/
theorem RowAgrees.of_visible (hw : g.Writable) (hw' : g'.Writable) (hc : col < g.cols)
    (hedge : LeftEdge R row col) (hedge' : LeftEdge S row col)
    (hv : (g.cellAt row col).hidden = false) (hv' : (g'.cellAt row col).hidden = false)
    (ih : LeftEdge S row (col + (g.unitStart row col).width) →
      (g.unitsFrom row (col + (g.unitStart row col).width)).map t.unitText =
        (g'.unitsFrom row (col + (g.unitStart row col).width)).map t.unitText →
      RowAgrees g g' R S row (col + (g.unitStart row col).width))
    (htexts : (g.unitsFrom row col).map t.unitText = (g'.unitsFrom row col).map t.unitText) :
    RowAgrees g g' R S row col := by
  have hc' : col < g'.cols := hcols ▸ hc
  rw [h.unitsFrom_visible hf hr hc hedge hv, h'.unitsFrom_visible hf' hr' hc' hedge' hv',
    List.map_cons, List.map_cons] at htexts
  obtain ⟨hhead, htail⟩ := List.cons.inj htexts
  have hread := congrArg (fun s => readUnit s.toList) hhead
  simp only [readUnit_visible (hw row col), readUnit_visible (hw' row col),
    Prod.mk.injEq] at hread
  obtain ⟨hcolumns, hrows, htext⟩ := hread
  have hspan := same_spans h h' hcolumns hrows
  have hwidth : (g.unitStart row col).width = (g'.unitStart row col).width := by
    rw [h.unitStart_visible hr hc hv, h'.unitStart_visible hr' hc' hv']
    exact congrArg (max · 1) (hspan .column)
  have hnext := h'.leftEdge_next hf' hr' hc' hedge'
  rw [← hwidth] at hnext htail
  refine .step h h' hf hf' hcols hr hr' hc hedge hedge' hwidth ?_ (fun _ => htext)
    (ih hnext htail)
  rintro r rfl rfl
  exact ⟨fun hrR => h.mem_of_same_spans h' hrR hv' hspan,
    fun hrS => h'.mem_of_same_spans h hrS hv fun axis => (hspan axis).symm⟩

/-- A region that goes on in both grids, where they agree behind it. -/
theorem RowAgrees.of_continuation (hrR : r ∈ R) (hrS : r ∈ S)
    (hrow : r.minRow < row ∧ row ≤ r.maxRow) (hedge : LeftEdge R row r.minCol)
    (hedge' : LeftEdge S row r.minCol)
    (ih : LeftEdge S row (r.minCol + r.colCount) →
      (g.unitsFrom row (r.minCol + r.colCount)).map t.unitText =
        (g'.unitsFrom row (r.minCol + r.colCount)).map t.unitText →
      RowAgrees g g' R S row (r.minCol + r.colCount))
    (htexts : (g.unitsFrom row r.minCol).map t.unitText =
      (g'.unitsFrom row r.minCol).map t.unitText) :
    RowAgrees g g' R S row r.minCol := by
  have hhidden := h.hidden_of_continues hrR hrow
  have hhidden' := h'.hidden_of_continues hrS hrow
  have hwidth := h.width_region hf hrR ⟨hrow.1.le, hrow.2⟩
  have hwidth' := h'.width_region hf' hrS ⟨hrow.1.le, hrow.2⟩
  obtain ⟨u, hu⟩ := h.unitsFrom_continuation hf hr hrR hrow hedge
  obtain ⟨u', hu'⟩ := h'.unitsFrom_continuation hf' hr' hrS hrow hedge'
  have hnext := h'.leftEdge_next hf' hr' (h'.first_lt hrS).2 hedge'
  rw [hu, hu', List.map_cons, List.map_cons] at htexts
  rw [hwidth'] at hnext
  refine .step h h' hf hf' hcols hr hr' (h.first_lt hrR).2 hedge hedge'
    (hwidth.trans hwidth'.symm) ?_ ?_ (hwidth ▸ ih hnext (List.cons.inj htexts).2)
  · rintro s rfl hcol
    constructor
    · intro hsR
      rw [← hcol, (h.start_of_mem hsR).2.1] at hhidden
      contradiction
    · intro hsS
      rw [← hcol, (h'.start_of_mem hsS).2.1] at hhidden'
      contradiction
  · intro hv
    rw [hhidden] at hv
    contradiction

/-- The regions from above and the texts of the units determine the row. -/
theorem RowAgrees.of_units (hw : g.Writable) (hw' : g'.Writable)
    (hbefore : ∀ r, r.minRow < row → (r ∈ R ↔ r ∈ S)) (hedge : LeftEdge R row col) :
    LeftEdge S row col →
      (g.unitsFrom row col).map t.unitText = (g'.unitsFrom row col).map t.unitText →
      RowAgrees g g' R S row col := by
  refine h.edge_induction hf hr (P := fun col => LeftEdge S row col →
    (g.unitsFrom row col).map t.unitText = (g'.unitsFrom row col).map t.unitText →
      RowAgrees g g' R S row col) ?_ ?_ col hedge
  · intro col hc _ _
    exact .of_le h h' hcols hc
  · intro col hc hedge ih hedge' htexts
    rcases h.visible_or_continues hedge with hv | ⟨r, hrR, rfl, hrow⟩
    · rcases h'.visible_or_continues hedge' with hv' | ⟨r, hrS, rfl, hrow⟩
      · exact .of_visible h h' hf hf' hcols hr hr' hw hw' hc hedge hedge' hv hv' ih htexts
      · rw [h.hidden_of_continues ((hbefore r hrow.1).mpr hrS) hrow] at hv
        contradiction
    · have hrS := (hbefore r hrow.1).mp hrR
      rw [h.width_region hf hrR ⟨hrow.1.le, hrow.2⟩] at ih
      exact .of_continuation h h' hf hf' hcols hr hr' hrR hrS hrow hedge hedge' ih htexts

end Walk

/-- The texts of all rows determine the regions and the texts of the visible cells. -/
theorem same_of_unitTexts (h : Layout g R) (h' : Layout g' S) (hf : g.Fits) (hf' : g'.Fits)
    (hw : g.Writable) (hw' : g'.Writable) (hrows : g.rows = g'.rows) (hcols : g.cols = g'.cols)
    (htexts : ∀ row < g.rows,
      (g.rowUnits row).map t.unitText = (g'.rowUnits row).map t.unitText) :
    R = S ∧ ∀ row < g.rows, ∀ col < g.cols, (g.cellAt row col).hidden = false →
      trimmed (g.cellAt row col).text.toList = trimmed (g'.cellAt row col).text.toList := by
  have hagree (row : Nat) : row < g.rows → RowAgrees g g' R S row 0 := by
    induction row using Nat.strong_induction_on with
    | _ row ih =>
      intro hr
      apply RowAgrees.of_units h h' hf hf' hcols hr (hrows ▸ hr) hw hw' _ leftEdge_zero
        leftEdge_zero (htexts row hr)
      intro r hlt
      exact (ih r.minRow hlt (hlt.trans hr)).regions r rfl (Nat.zero_le _)
  constructor
  · ext r
    constructor
    · intro hrR
      have hin := h.first_lt hrR
      exact ((hagree r.minRow hin.1).regions r rfl (Nat.zero_le _)).mp hrR
    · intro hrS
      have hin := h'.first_lt hrS
      exact ((hagree r.minRow (hrows ▸ hin.1)).regions r rfl (Nat.zero_le _)).mpr hrS
  · intro row hr col hc
    exact (hagree row hr).texts col (Nat.zero_le _) hc

end LatexTable.Grid
