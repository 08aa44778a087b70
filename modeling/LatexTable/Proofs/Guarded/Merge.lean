import LatexTable.Proofs.Grid.Reachable
import LatexTable.Proofs.Guarded.Cells
/-!
Merging, splitting and updating with every access guarded: each of them goes over the cells of a
rectangle in place.
-/
namespace LatexTable

namespace Guarded

/-- Gives every cell of a rectangle a new value, in place. -/
def rewrite (g : Grid) (r : CellRange) (value : Nat → Nat → Cell → Guarded Cell) : Guarded Grid :=
  r.cells.foldlM (fun g (row, col) => do
    writeCell g row col (← value row col (← readCell g row col))) g

/-- The cells of a region stand alone again. -/
def dissolve (g : Grid) (r : CellRange) : Guarded Grid :=
  rewrite g r fun row col c => return if r.startsAt row col then c.alone else .empty

/-- The cells of a rectangle become one region. -/
def cover (g : Grid) (r : CellRange) : Guarded Grid :=
  rewrite g r fun row col c => do
    if r.startsAt row col then
      let rowSpan ← lineCount r .row
      let colSpan ← lineCount r .column
      return { c with rowSpan, colSpan, hidden := false }
    else return .shadow

def merge (g : Grid) (r : CellRange) : Guarded (TableResult Unit × Grid) :=
  proceedIn g (g.checkRange r) fun _ => do
    if r.isSingle then return (.ok (), g)
    else
      let absorbed := (← regions g).filter (·.intersects r)
      let cleared ← absorbed.foldlM dissolve g
      return (.ok (), ← cover cleared r)

def split (g : Grid) (r : CellRange) : Guarded (TableResult Nat × Grid) :=
  proceedIn g (g.checkRange r) fun _ => do
    let targets := (← regions g).filter fun s => r.contains s.minRow s.minCol
    return (.ok targets.length, ← targets.foldlM dissolve g)

def updateCell (g : Grid) (row col : Nat) (f : CellContent → CellContent) :
    Guarded (TableResult Bool × Grid) :=
  proceedIn g (g.check row col) fun _ => do
    let c ← readCell g row col
    if c.hidden then return (.ok false, g)
    else return (.ok true, ← writeCell g row col (c.update f))

/-- One round of an update: a hidden cell is passed over, any other is counted. -/
def updateNext (f : Nat → Nat → CellContent → CellContent) :
    Grid × Nat → Nat × Nat → Guarded (Grid × Nat)
  | (g, count), (row, col) => do
    let c ← readCell g row col
    if c.hidden then return (g, count)
    else return (← writeCell g row col (c.update (f row col)), ← add count 1)

def updateEach (g : Grid) (r : CellRange) (f : Nat → Nat → CellContent → CellContent) :
    Guarded (TableResult Nat × Grid) :=
  proceedIn g (g.checkRange r) fun _ => do
    let (updated, count) ← r.cells.foldlM (updateNext f) (g, 0)
    return (.ok count, updated)

def applyStyle (g : Grid) (r : CellRange) (focusRow focusCol : Nat) (command : StyleCommand) :
    Guarded (TableResult Nat × Grid) := do
  proceedIn g (← cell g focusRow focusCol) fun focused =>
    updateEach g r fun _ _ content =>
      { content with style := command.apply focused.style content.style }

end Guarded

namespace Grid

variable {g : Grid} {R : Set CellRange} {r : CellRange} {gone : List CellRange} {row col : Nat}

/-- All cells of the rectangle are cells of the grid. -/
structure Holds (g : Grid) (r : CellRange) : Prop where
  ordered : r.Ordered
  inside : ∀ axis, r.last axis < g.lineCount axis

theorem holds_of_checkRange (hord : r.Ordered) (h : g.checkRange r = .ok ()) : g.Holds r :=
  ⟨hord, (checkRange_eq_ok hord).mp h⟩

namespace Holds

theorem lt (h : g.Holds r) (hc : r.contains row col = true) : row < g.rows ∧ col < g.cols := by
  obtain ⟨⟨-, hrow⟩, -, hcol⟩ := CellRange.contains_iff.mp hc
  exact ⟨hrow.trans_lt (h.inside .row), hcol.trans_lt (h.inside .column)⟩

/-- A rectangle has no more cells than the grid. -/
theorem length_cells_le (h : g.Holds r) : r.cells.length ≤ g.rows * g.cols := by
  have hrow : r.maxRow < g.rows := h.inside .row
  have hcol : r.maxCol < g.cols := h.inside .column
  have hrows : r.rowCount ≤ g.rows := by
    rw [CellRange.rowCount]
    omega
  have hcols : r.colCount ≤ g.cols := by
    rw [CellRange.colCount]
    omega
  rw [CellRange.length_cells]
  exact Nat.mul_le_mul hrows hcols

end Holds

theorem rewrite_eq (h : g.Stored) (hr : g.Holds r) {value : Nat → Nat → Cell → Guarded Cell}
    {v : Nat → Nat → Cell → Cell} (hvalue : ∀ row col c, value row col c = .ok (v row col c)) :
    Guarded.rewrite g r value = .ok (tabulate g.rows g.cols fun row col =>
      if r.contains row col then v row col (g.cellAt row col) else g.cellAt row col) := by
  apply h.foldlM_overlaid (t := id)
  · rintro done ⟨row, col⟩ rest hxs
    have hmem : (row, col) ∈ r.cells := by simp [hxs]
    have hc := (CellRange.mem_cells hr.ordered).mp hmem
    obtain ⟨hrow, hcol⟩ := hr.lt hc
    have hnew : (row, col) ∉ done.map id :=
      notMem_done (t := id) (by simpa using r.cells_nodup) hxs
    have hwrite := h.writeCell_overlaid (d := done.map id) hrow hcol
      (f := fun row col =>
        if r.contains row col then v row col (g.cellAt row col) else g.cellAt row col)
    rw [if_pos hc] at hwrite
    simp only [h.readCell_overlaid hrow hcol hnew, Guarded.ok_bind, hvalue]
    exact hwrite
  · intro row _ col _ hout
    rw [List.map_id, CellRange.mem_cells hr.ordered] at hout
    exact if_neg hout

theorem guarded_dissolve_eq (h : g.Stored) (hr : g.Holds r) :
    Guarded.dissolve g r = .ok (g.dissolve [r]) := by
  refine (rewrite_eq h hr fun _ _ _ => rfl).trans (congrArg Except.ok ?_)
  apply tabulate_congr
  intro row _ col _
  simp only [dissolvedAt, List.any_cons, List.any_nil, Bool.or_false]
  cases hs : r.startsAt row col with
  | true => simp [CellRange.contains_of_startsAt hr.ordered hs]
  | false => rfl

theorem guarded_cover_eq (h : g.Stored) (hr : g.Holds r)
    (hmax : ∀ axis, g.lineCount axis ≤ maxIndex) : Guarded.cover g r = .ok (g.cover r) := by
  have hlast (axis : Axis) : r.last axis < maxIndex := (hr.inside axis).trans_le (hmax axis)
  rw [Guarded.cover, rewrite_eq h hr (v := fun row col c =>
    if r.startsAt row col then
      { c with rowSpan := r.rowCount, colSpan := r.colCount, hidden := false }
    else .shadow)]
  · congr 1
    apply tabulate_congr
    intro row _ col _
    cases hs : r.startsAt row col with
    | true => simp [CellRange.contains_of_startsAt hr.ordered hs]
    | false => rfl
  · intro row col c
    rw [Guarded.lineCount_eq hr.ordered (hlast .row),
      Guarded.lineCount_eq hr.ordered (hlast .column)]
    cases r.startsAt row col <;> rfl

/-- Regions that share no cell can be dissolved one after the other. -/
theorem Layout.dissolve_append (h : Layout g R) (hgone : ∀ s ∈ gone, s ∈ R) (hr : r ∈ R)
    (hnew : r ∉ gone) : (g.dissolve gone).dissolve [r] = g.dissolve (gone ++ [r]) := by
  have hord : ∀ s ∈ gone, s.Ordered := fun s hs => h.ordered s (hgone s hs)
  apply tabulate_congr
  intro row _ col _
  simp only [dissolvedAt, h.cellAt_dissolve hgone, List.any_append, List.any_cons, List.any_nil,
    Bool.or_false]
  cases hc : r.contains row col with
  | true =>
    have hout : ∀ s ∈ gone, s.contains row col = false := by
      intro s hs
      by_contra hsc
      exact hnew (h.eq_of_contains hr (hgone s hs) hc (by simpa using hsc) ▸ hs)
    have hstarts : gone.any (·.startsAt row col) = false := by
      rw [List.any_eq_false]
      intro s hs hss
      simpa [hout s hs] using CellRange.contains_of_startsAt (hord s hs) hss
    have hcontains : gone.any (·.contains row col) = false := by simpa using hout
    simp [hstarts, hcontains]
  | false =>
    have hs : r.startsAt row col = false := by
      by_contra hs
      rw [CellRange.contains_of_startsAt (h.ordered r hr) (by simpa using hs)] at hc
      contradiction
    simp [hs]

namespace Layout

theorem stored (h : Layout g R) (hf : g.Fits) : g.Stored := ⟨h.full, hf⟩

theorem lineCount_guarded (h : Layout g R) (hf : g.Fits) (hr : r ∈ R) (axis : Axis) :
    Guarded.lineCount r axis = .ok (r.lineCount axis) :=
  Guarded.lineCount_eq (h.ordered r hr) ((h.inside r hr axis).trans_le (h.lineCount_le hf axis))

/-- A loop that dissolves some of the regions, one after the other. -/
theorem foldlM_dissolve_eq (h : Layout g R) (hf : g.Fits) (p : CellRange → Bool) :
    (g.regions.filter p).foldlM Guarded.dissolve g = .ok (g.dissolve (g.regions.filter p)) := by
  have hg := h.stored hf
  have hnil : g.dissolve [] = g := hg.full.eq_tabulate.symm
  have hgone : ∀ s ∈ g.regions.filter p, s ∈ R := fun s hs =>
    (h.mem_regions (h.indexed hf)).mp (List.mem_filter.mp hs).1
  have hnodup : (g.regions.filter p).Nodup := g.regions_nodup.filter p
  have hrun := Guarded.foldlM_eq (f := Guarded.dissolve) (s := g.dissolve)
    (l := g.regions.filter p) fun done r rest hl => by
      have hdone : ∀ s ∈ done, s ∈ R := fun s hs => hgone s (by simp [hl, hs])
      have hr : r ∈ R := hgone r (by simp [hl])
      have hnew : r ∉ done := by
        rw [hl] at hnodup
        exact fun hmem => (List.nodup_append.mp hnodup).2.2 r hmem r List.mem_cons_self rfl
      have hstored : (g.dissolve done).Stored := stored_tabulate hg
      rw [guarded_dissolve_eq hstored ⟨h.ordered r hr, by simpa using h.inside r hr⟩,
        h.dissolve_append hdone hr hnew]
  rwa [hnil] at hrun

theorem merge_guarded (h : Layout g R) (hf : g.Fits) (hord : r.Ordered) :
    Guarded.merge g r = .ok (g.mergeInPlace r) := by
  have hg := h.stored hf
  refine Guarded.proceedIn_eq g (·.checkRange r) fun _ hcheck => ?_
  cases r.isSingle with
  | true => rfl
  | false =>
    have hr := holds_of_checkRange hord hcheck
    have hcleared : (g.dissolve (g.regions.filter (·.intersects r))).Stored := stored_tabulate hg
    simp only [Bool.false_eq_true, if_false, hg.regions_eq, Guarded.ok_bind,
      h.foldlM_dissolve_eq hf, guarded_cover_eq hcleared ⟨hr.ordered, by simpa using hr.inside⟩
        (by simpa using h.lineCount_le hf)]
    rfl

theorem split_guarded (h : Layout g R) (hf : g.Fits) :
    Guarded.split g r = .ok (g.splitInPlace r) := by
  refine Guarded.proceedIn_eq g (·.checkRange r) fun _ _ => ?_
  simp only [(h.stored hf).regions_eq, Guarded.ok_bind, h.foldlM_dissolve_eq hf]
  rfl

end Layout

namespace Stored

theorem updateCell_eq (h : g.Stored) (f : CellContent → CellContent) :
    Guarded.updateCell g row col f = .ok (g.updateCellInPlace row col f) := by
  refine Guarded.proceedIn_eq g (·.check row col) fun _ hcheck => ?_
  obtain ⟨hr, hc⟩ := check_eq_ok_iff.mp hcheck
  simp only [h.readCell_eq hr hc, Guarded.ok_bind]
  cases (g.cellAt row col).hidden with
  | true => rfl
  | false =>
    simp only [Bool.false_eq_true, if_false, h.writeCell_eq hr hc, Guarded.ok_bind]
    have hat : (tabulate g.rows g.cols fun r k =>
        if r = row ∧ k = col then (g.cellAt row col).update f else g.cellAt r k) =
        tabulate g.rows g.cols fun r k =>
          if r = row && k = col then (g.cellAt r k).update f else g.cellAt r k := by
      apply tabulate_congr
      intro r _ k _
      by_cases hrk : r = row ∧ k = col
      · obtain ⟨rfl, rfl⟩ := hrk
        simp
      · simp [hrk]
    rw [hat]
    rfl

theorem updateEach_eq (h : g.Stored) (hord : r.Ordered)
    (f : Nat → Nat → CellContent → CellContent) :
    Guarded.updateEach g r f = .ok (g.updateEachInPlace r f) := by
  refine Guarded.proceedIn_eq g (·.checkRange r) fun _ hcheck => ?_
  have hr := holds_of_checkRange hord hcheck
  -- after any number of rounds the places that are done are updated, and the visible ones counted
  let updated (row col : Nat) : Cell :=
    if r.contains row col then (g.cellAt row col).update (f row col) else g.cellAt row col
  let visible (p : Nat × Nat) : Bool := !(g.cellAt p.1 p.2).hidden
  have hrun := Guarded.foldlM_eq (f := Guarded.updateNext f) (l := r.cells)
    (s := fun done => (g.overlaid done updated, done.countP visible)) fun done p rest hxs => by
      obtain ⟨row, col⟩ := p
      have hc : r.contains row col = true :=
        (CellRange.mem_cells hr.ordered).mp (by simp [hxs])
      obtain ⟨hrow, hcol⟩ := hr.lt hc
      have hnew : (row, col) ∉ done := by
        simpa using notMem_done (t := id) (by simpa using r.cells_nodup) hxs
      have hcount : done.countP visible + 1 ≤ maxIndex := by
        have hdone : done.length + 1 ≤ r.cells.length := by simp [hxs]
        have hle : done.countP visible ≤ done.length := List.countP_le_length
        have hfits : g.rows * g.cols ≤ maxIndex := h.fits
        have hcells := hr.length_cells_le
        omega
      have hat : updated row col = (g.cellAt row col).update (f row col) := if_pos hc
      have hwrite := h.writeCell_overlaid (d := done) (f := updated) hrow hcol
      simp only [Guarded.updateNext, h.readCell_overlaid hrow hcol hnew, Guarded.ok_bind]
      rw [hat] at hwrite
      cases hh : (g.cellAt row col).hidden with
      | true =>
        have hsame : updated row col = g.cellAt row col := by rw [hat, Cell.update, if_pos hh]
        rw [overlaid_append_of_eq hsame]
        simp [visible, hh]
      | false =>
        simp only [Bool.false_eq_true, if_false, hwrite, Guarded.ok_bind, Guarded.add_eq hcount]
        simp [visible, hh]
  have hrest : g.overlaid r.cells updated = tabulate g.rows g.cols updated := by
    refine overlaid_eq_tabulate fun row _ col _ hout => ?_
    rw [CellRange.mem_cells hr.ordered] at hout
    exact if_neg hout
  rw [overlaid_nil h.full, hrest, List.countP_nil] at hrun
  rw [hrun]
  rfl

theorem applyStyle_eq (h : g.Stored) (hord : r.Ordered) (command : StyleCommand) :
    Guarded.applyStyle g r row col command = .ok (g.applyStyleInPlace r row col command) := by
  rw [Guarded.applyStyle, h.cell_eq, Guarded.ok_bind]
  refine Guarded.proceedIn_eq g (·.cell row col) fun _ _ => ?_
  rw [InPlace.perform_call]
  exact h.updateEach_eq hord _

end Stored

end Grid
end LatexTable
