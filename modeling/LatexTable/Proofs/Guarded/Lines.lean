import LatexTable.Proofs.Guarded.Merge
/-!
Inserting and deleting rows and columns with every access guarded. The regions are patched in the
old store first; then a row is spliced into the store or drained from it, while a column is put into
every row or taken out of it.
-/
namespace LatexTable

namespace Guarded

/-- A region that runs through a new line spans one line more. -/
def grow (axis : Axis) (g : Grid) (r : CellRange) : Guarded Grid := do
  let first ← readCell g r.minRow r.minCol
  writeCell g r.minRow r.minCol (first.withSpan axis (← add (first.span axis) 1))

def insertRow (g : Grid) (pos : Nat) : Guarded (TableResult Unit × Grid) := do
  if g.rows < pos then return (.error (g.outOfBounds pos 0), g)
  else
    let crossing := (← regions g).filter fun r => r.minRow < pos && pos ≤ r.maxRow
    let grown ← crossing.foldlM (grow .row) g
    let line := (List.range g.cols).map fun col =>
      if crossing.any fun r => r.minCol ≤ col && col ≤ r.maxCol then Cell.shadow else .empty
    let start ← mul pos g.cols
    let cells ← splice grown.cells.toList start start line
    return (.ok (), ⟨← add g.rows 1, g.cols, cells.toArray⟩)

/-- The number of cells that room is made for before a column is put in. It is no index, and the
insertion itself does not need it. -/
def roomForCol (g : Grid) : Guarded Nat := do mul g.rows (← add g.cols 1)

def insertCol (g : Grid) (pos : Nat) : Guarded (TableResult Unit × Grid) := do
  if g.cols < pos then return (.error (g.outOfBounds 0 pos), g)
  else
    let crossing := (← regions g).filter fun r => r.minCol < pos && pos ≤ r.maxCol
    let grown ← crossing.foldlM (grow .column) g
    let cols ← add g.cols 1
    let lines ← chunks g.cols grown.cells.toList
    let lines ← lines.zipIdx.mapM fun (line, row) => do
      let before ← slice line 0 pos
      let covered := crossing.any fun r => r.minRow ≤ row && row ≤ r.maxRow
      return before ++ (if covered then Cell.shadow else .empty) :: (← slice line pos line.length)
    return (.ok (), ⟨g.rows, cols, lines.flatten.toArray⟩)

/-- A region gives up the line `pos`: its first cell spans one line less, or the first cell of the
next line takes its place. -/
def shrink (axis : Axis) (pos : Nat) (g : Grid) (r : CellRange) : Guarded Grid := do
  if r.hasLine axis pos then
    if r.first axis < pos then
      let first ← readCell g r.minRow r.minCol
      writeCell g r.minRow r.minCol (first.withSpan axis (← sub (first.span axis) 1))
    else if 1 < (← lineCount r axis) then
      let first ← readCell g r.minRow r.minCol
      let (row, col) := axis.place (← add pos 1) (r.first axis.other)
      let heir ← readCell g row col
      let rowSpan ← lineCount r .row
      let colSpan ← lineCount r .column
      let master := { heir with hidden := false, rowSpan, colSpan, style := first.style }
      writeCell g row col (master.withSpan axis (← sub (master.span axis) 1))
    else return g
  else return g

def deleteRow (g : Grid) (pos : Nat) : Guarded (TableResult Unit × Grid) :=
  proceedIn g (g.check pos 0) fun _ => do
    if g.rows = 1 then return (.error (.minimumSize .row), g)
    else
      let shrunk ← (← regions g).foldlM (shrink .row pos) g
      let start ← mul pos g.cols
      let cells ← splice shrunk.cells.toList start (← add start g.cols) []
      return (.ok (), ⟨← sub g.rows 1, g.cols, cells.toArray⟩)

def deleteCol (g : Grid) (pos : Nat) : Guarded (TableResult Unit × Grid) :=
  proceedIn g (g.check 0 pos) fun _ => do
    if g.cols = 1 then return (.error (.minimumSize .column), g)
    else
      let shrunk ← (← regions g).foldlM (shrink .column pos) g
      let lines ← chunks g.cols shrunk.cells.toList
      let lines := lines.map fun line => (line.zipIdx.filter fun (_, col) => col ≠ pos).map Prod.fst
      return (.ok (), ⟨g.rows, ← sub g.cols 1, lines.flatten.toArray⟩)

/-- Appends a row; the answer is passed over. -/
def addRow (g : Grid) : Guarded Grid := do return (← insertRow g g.rows).2

def addCol (g : Grid) : Guarded Grid := do return (← insertCol g g.cols).2

def rowHasContent (g : Grid) (pos : Nat) : Guarded (TableResult Bool) := do
  proceed (← row g pos) fun cells => return .ok (cells.any Cell.hasContent)

def colHasContent (g : Grid) (pos : Nat) : Guarded (TableResult Bool) :=
  proceed (g.check 0 pos) fun _ => do
    return .ok (← (List.range g.rows).anyM fun row => do return (← readCell g row pos).hasContent)

end Guarded

namespace CellRange

/-- The place of the first cell. -/
def origin (r : CellRange) : Nat × Nat := (r.minRow, r.minCol)

/-- The place of the cell that owns the region when it gives up a line. -/
def settledAt (r : CellRange) (axis : Axis) (pos : Nat) : Nat × Nat :=
  if r.first axis = pos ∧ pos < r.last axis then axis.place (pos + 1) (r.first axis.other)
  else r.origin

theorem Ordered.contains_settledAt {r : CellRange} (h : r.Ordered) (axis : Axis) (pos : Nat) :
    r.contains (r.settledAt axis pos).1 (r.settledAt axis pos).2 = true := by
  unfold settledAt
  split
  next hs => exact contains_place.mpr (containsOn_next h (startsOn_iff.mpr ⟨hs.1, rfl⟩) hs.2)
  next => exact h.contains_first

end CellRange

namespace Grid

variable {g : Grid} {R : Set CellRange} {r : CellRange} {axis : Axis} {pos row col : Nat}

theorem cellOn_line (row col : Nat) :
    g.cellOn axis (axis.line row col) (axis.other.line row col) = g.cellAt row col := by
  cases axis <;> rfl

theorem line_first : axis.line r.minRow r.minCol = r.first axis := by cases axis <;> rfl

/-- A cell before a line is put in, the regions having grown. -/
def grownCell (g : Grid) (axis : Axis) (pos row col : Nat) : Cell :=
  if axis.line row col < pos then
    g.insertedCell axis pos (g.runningThrough axis pos) (axis.line row col)
      (axis.other.line row col)
  else g.cellAt row col

namespace Layout

/-- The regions start at different places. -/
theorem firsts_nodup (h : Layout g R) {rs : List CellRange} (hrs : ∀ r ∈ rs, r ∈ R)
    (hnodup : rs.Nodup) {t : CellRange → Nat × Nat}
    (htarget : ∀ r ∈ rs, r.contains (t r).1 (t r).2 = true) :
    (rs.map t).Nodup := by
  refine List.Nodup.map_on (fun r hr s hs heq => ?_) hnodup
  exact h.eq_of_contains (hrs r hr) (hrs s hs) (htarget r hr) (heq ▸ htarget s hs)

theorem foldlM_grow_eq (h : Layout g R) (hf : g.Fits) (hmax : g.lineCount axis + 1 ≤ maxIndex) :
    (g.runningThrough axis pos).foldlM (Guarded.grow axis) g =
      .ok (tabulate g.rows g.cols (g.grownCell axis pos)) := by
  have hg := h.stored hf
  have hmem : ∀ r ∈ g.runningThrough axis pos,
      r ∈ R ∧ r.first axis < pos ∧ pos ≤ r.last axis := by
    intro r hr
    exact (h.mem_runningThrough (h.indexed hf)).mp hr
  have hnodup := h.firsts_nodup (t := CellRange.origin) (fun r hr => (hmem r hr).1)
    (g.regions_nodup.filter _) fun r hr => (h.ordered r (hmem r hr).1).contains_first
  apply hg.foldlM_overlaid (t := CellRange.origin)
  · intro done r rest hxs
    have hrun : r ∈ g.runningThrough axis pos := by simp [hxs]
    obtain ⟨hr, hfirst, -⟩ := hmem r hrun
    obtain ⟨hrow, hcol⟩ := h.first_lt hr
    have hspan := (h.owner r hr _ _ r.startsAt_first).2 axis
    have hcount : r.lineCount axis = r.last axis - r.first axis + 1 := CellRange.lineCount_eq
    have hinside := h.inside r hr axis
    have hgrown : g.grownCell axis pos r.minRow r.minCol =
        (g.cellAt r.minRow r.minCol).withSpan axis
          ((g.cellAt r.minRow r.minCol).span axis + 1) := by
      rw [grownCell, line_first, line_first, if_pos hfirst, insertedCell_of_startsOn hfirst hrun
        (CellRange.startsOn_iff.mpr ⟨rfl, rfl⟩), ← line_first, ← line_first, cellOn_line]
    have hnew := notMem_done (t := CellRange.origin) hnodup hxs
    rw [Guarded.grow, hg.readCell_overlaid hrow hcol hnew, Guarded.ok_bind,
      Guarded.add_eq (by omega), Guarded.ok_bind, ← hgrown]
    exact hg.writeCell_overlaid hrow hcol
  · intro row _ col _ hout
    unfold grownCell
    split
    next hlt =>
      rw [insertedCell_of_lt hlt, cellOn_line]
      intro r hr hs
      obtain ⟨hline, hoffset⟩ := CellRange.startsOn_iff.mp hs
      have hplace : (row, col) = (r.minRow, r.minCol) := by
        cases axis
        · exact Prod.ext hline.symm hoffset.symm
        · exact Prod.ext hoffset.symm hline.symm
      exact hout (List.mem_map.mpr ⟨r, hr, hplace.symm⟩)
    next => rfl

end Layout

/-- A new line between the grown ones gives the lines of the new grid. -/
theorem insertedCell_eq_grownCell (line offset : Nat) :
    (if line < pos then
      g.grownCell axis pos (axis.place line offset).1 (axis.place line offset).2
    else if line = pos then
      if (g.runningThrough axis pos).any (·.hasLine axis.other offset) then .shadow else .empty
    else g.grownCell axis pos (axis.place (line - 1) offset).1 (axis.place (line - 1) offset).2) =
    g.insertedCell axis pos (g.runningThrough axis pos) line offset := by
  have hplace (l : Nat) : g.grownCell axis pos (axis.place l offset).1 (axis.place l offset).2 =
      if l < pos then g.insertedCell axis pos (g.runningThrough axis pos) l offset
      else g.cellOn axis l offset := by cases axis <;> rfl
  rw [hplace, hplace]
  rcases Nat.lt_trichotomy line pos with hlt | rfl | hgt
  · rw [if_pos hlt, if_pos hlt]
  · simp [insertedCell]
  · rw [if_neg hgt.not_gt, if_neg hgt.ne', if_neg (by omega), insertedCell_of_gt hgt]

namespace Layout

theorem insertRow_guarded (h : Layout g R) (hf : g.Fits) (hmax : g.rows + 1 ≤ maxIndex) :
    Guarded.insertRow g pos = .ok (g.insertLineInPlace .row pos) := by
  have hg := h.stored hf
  rw [insertLineInPlace_eq]
  by_cases hlt : g.rows < pos
  · rw [Guarded.insertRow, if_pos hlt, if_pos (show g.lineCount .row < pos from hlt)]
    rfl
  · have hpos : pos ≤ g.rows := Nat.le_of_not_lt hlt
    have hgrow : (g.runningThrough .row pos).foldlM (Guarded.grow .row) g = _ :=
      h.foldlM_grow_eq hf hmax
    have hstart : pos * g.cols ≤ maxIndex := (Nat.mul_le_mul_right _ hpos).trans hf
    have hwidth : ∀ l ∈ (List.range g.rows).map fun row =>
        (List.range g.cols).map (g.grownCell .row pos row), l.length = g.cols := by simp
    rw [Guarded.insertRow, if_neg hlt, if_neg (show ¬g.lineCount .row < pos from hlt),
      hg.regions_eq, Guarded.ok_bind]
    change (g.runningThrough .row pos).foldlM (Guarded.grow .row) g >>= _ = _
    rw [hgrow, Guarded.ok_bind, Guarded.mul_eq hstart, Guarded.ok_bind, tabulate_eq]
    simp only [toList_laidOut]
    rw [Guarded.splice_flatten hwidth (by simpa using hpos), insert_map_range hpos,
      Guarded.ok_bind, Guarded.add_eq hmax, Guarded.ok_bind]
    refine congrArg (fun g => Except.ok (Except.ok (), g)) (eq_tabulate_of_rows ?_)
    refine List.map_congr_left fun row _ => ?_
    have hrow : g.insertedCell .row pos (g.runningThrough .row pos) row = _ :=
      funext fun col => (insertedCell_eq_grownCell row col).symm
    rw [hrow]
    split_ifs <;> rfl

theorem insertCol_guarded (h : Layout g R) (hf : g.Fits) (hmax : g.cols + 1 ≤ maxIndex) :
    Guarded.insertCol g pos = .ok (g.insertLineInPlace .column pos) := by
  have hg := h.stored hf
  rw [insertLineInPlace_eq]
  by_cases hlt : g.cols < pos
  · rw [Guarded.insertCol, if_pos hlt, if_pos (show g.lineCount .column < pos from hlt)]
    rfl
  · have hpos : pos ≤ g.cols := Nat.le_of_not_lt hlt
    have hgrow : (g.runningThrough .column pos).foldlM (Guarded.grow .column) g = _ :=
      h.foldlM_grow_eq hf hmax
    have hwidth : ∀ l ∈ (List.range g.rows).map fun row =>
        (List.range g.cols).map (g.grownCell .column pos row), l.length = g.cols := by simp
    rw [Guarded.insertCol, if_neg hlt, if_neg (show ¬g.lineCount .column < pos from hlt),
      hg.regions_eq, Guarded.ok_bind]
    change (g.runningThrough .column pos).foldlM (Guarded.grow .column) g >>= _ = _
    rw [hgrow, Guarded.ok_bind, Guarded.add_eq hmax, Guarded.ok_bind, tabulate_eq]
    simp only [toList_laidOut]
    rw [Guarded.chunks_flatten (show 0 < g.cols from h.pos .column) hwidth, Guarded.ok_bind,
      zipIdx_map_range]
    -- every row is cut at the new column, and the cell for it put in between
    rw [Guarded.mapM_eq (g := fun (line, row) => (List.range (g.cols + 1)).map fun col =>
      g.insertedCell .column pos (g.runningThrough .column pos) col row)]
    · rw [Guarded.ok_bind]
      refine congrArg (fun g => Except.ok (Except.ok (), g)) ?_
      apply eq_tabulate_of_rows (f := fun row col =>
        g.insertedCell .column pos (g.runningThrough .column pos) col row)
      rw [List.map_map]
      rfl
    · intro p hp
      obtain ⟨row, -, rfl⟩ := List.mem_map.mp hp
      have hlength : pos ≤ ((List.range g.cols).map (g.grownCell .column pos row)).length := by
        simpa using hpos
      simp only [Guarded.slice_eq (Nat.zero_le pos) hlength, Guarded.slice_eq hlength le_rfl,
        Guarded.ok_bind, Guarded.pure_eq, List.drop_zero, List.take_length]
      rw [insert_map_range hpos]
      refine congrArg Except.ok (List.map_congr_left fun col _ => ?_)
      exact insertedCell_eq_grownCell col row

end Layout

/-- A cell before a line is taken out, the regions having shrunk. -/
def shrunkCell (g : Grid) (axis : Axis) (pos row col : Nat) : Cell :=
  g.settledCell axis pos (g.meeting axis pos) (axis.line row col) (axis.other.line row col)

namespace Layout

/-- Only owners of regions that have the line and another one change. -/
theorem shrunkCell_of_ne (h : Layout g R) (hi : Indexed R)
    (hne : ∀ r ∈ R, r.first axis ≤ pos → pos ≤ r.last axis → r.first axis < r.last axis →
      r.settledAt axis pos ≠ (row, col)) :
    g.shrunkCell axis pos row col = g.cellAt row col := by
  have hplace : axis.place (axis.line row col) (axis.other.line row col) = (row, col) := by
    cases axis <;> rfl
  rw [shrunkCell, h.settledCell_of_not_heir hi, cellOn_line, if_neg]
  · rw [List.any_eq_true]
    rintro ⟨r, hr, hs⟩
    obtain ⟨hrR, hfirst, hlast⟩ := (h.mem_meeting hi).mp hr
    simp only [Bool.and_eq_true, decide_eq_true_eq] at hs
    refine hne r hrR hfirst hlast (hs.1.trans_le hlast) ?_
    obtain ⟨hline, hoffset⟩ := CellRange.startsOn_iff.mp hs.2
    rw [CellRange.settledAt, if_neg (by omega), ← hplace, ← hline, ← hoffset]
    cases axis <;> rfl
  · intro r hr hline hs hlast
    obtain ⟨hfirst, hoffset⟩ := CellRange.startsOn_iff.mp hs
    refine hne r hr hfirst.le hlast.le (hfirst ▸ hlast) ?_
    rw [CellRange.settledAt, if_pos ⟨hfirst, hlast⟩, ← hline, hoffset, hplace]

section Shrink

variable {d : List (Nat × Nat)}

/-- A region that starts before the line loses it. -/
theorem shrink_running (h : Layout g R) (hf : g.Fits) (hr : r ∈ R)
    (hrun : r.first axis < pos ∧ pos ≤ r.last axis)
    (hnew : ∀ row col, r.contains row col = true → (row, col) ∉ d) :
    Guarded.shrink axis pos (g.overlaid d (g.shrunkCell axis pos)) r =
      .ok (g.overlaid (d ++ [r.settledAt axis pos]) (g.shrunkCell axis pos)) := by
  have hg := h.stored hf
  have hi := h.indexed hf
  have hord := h.ordered r hr
  obtain ⟨hrow, hcol⟩ := h.first_lt hr
  have hmet : r ∈ g.meeting axis pos := (h.mem_meeting hi).mpr ⟨hr, hrun.1.le, hrun.2⟩
  have hplace : r.settledAt axis pos = (r.minRow, r.minCol) := if_neg (by omega)
  have hvalue : g.shrunkCell axis pos r.minRow r.minCol =
      (g.cellAt r.minRow r.minCol).withSpan axis ((g.cellAt r.minRow r.minCol).span axis - 1) := by
    rw [shrunkCell, h.settledCell_of_not_heir hi, cellOn_line, if_pos]
    · rw [List.any_eq_true]
      exact ⟨r, hmet, by simp [hrun.1, CellRange.startsOn, line_first]⟩
    · intro s _ hline
      rw [line_first] at hline
      omega
  have hspan := h.span_pos r.minRow r.minCol axis
  rw [Guarded.shrink, if_pos (CellRange.hasLine_iff.mpr ⟨hrun.1.le, hrun.2⟩), if_pos hrun.1,
    hg.readCell_overlaid hrow hcol (hnew _ _ hord.contains_first), Guarded.ok_bind,
    Guarded.sub_eq hspan, Guarded.ok_bind, ← hvalue, hplace]
  exact hg.writeCell_overlaid hrow hcol

/-- A region that starts on the line and has another one passes its shape and style on. -/
theorem shrink_heir (h : Layout g R) (hf : g.Fits) (hr : r ∈ R)
    (hheir : r.first axis = pos ∧ pos < r.last axis)
    (hnew : ∀ row col, r.contains row col = true → (row, col) ∉ d) :
    Guarded.shrink axis pos (g.overlaid d (g.shrunkCell axis pos)) r =
      .ok (g.overlaid (d ++ [r.settledAt axis pos]) (g.shrunkCell axis pos)) := by
  have hg := h.stored hf
  have hi := h.indexed hf
  have hord := h.ordered r hr
  have hcount := h.lineCount_guarded hf hr
  have hlines : r.lineCount axis = r.last axis - r.first axis + 1 := CellRange.lineCount_eq
  have hinside := h.inside r hr axis
  have hlimit := h.lineCount_le hf axis
  obtain ⟨hrow, hcol⟩ := h.first_lt hr
  have hplace : r.settledAt axis pos = axis.place (pos + 1) (r.first axis.other) := if_pos hheir
  have hcontains := hord.contains_settledAt axis pos
  rw [hplace] at hcontains
  obtain ⟨hrow', hcol'⟩ := h.lt_of_contains hr hcontains
  have hvalue := h.settledCell_heir hi hr (CellRange.startsOn_iff.mpr ⟨hheir.1, rfl⟩) hheir.2
  have hcell : g.shrunkCell axis pos (axis.place (pos + 1) (r.first axis.other)).1
      (axis.place (pos + 1) (r.first axis.other)).2 =
      g.heir axis r (g.cellOn axis (pos + 1) (r.first axis.other)) := by
    cases axis <;> exact hvalue
  have hwrite := hg.writeCell_overlaid (d := d) (f := g.shrunkCell axis pos) hrow' hcol'
  rw [Guarded.shrink, if_pos (CellRange.hasLine_iff.mpr ⟨hheir.1.le, hheir.2.le⟩),
    if_neg (by omega), hcount, Guarded.ok_bind, if_pos (by omega),
    hg.readCell_overlaid hrow hcol (hnew _ _ hord.contains_first), Guarded.ok_bind,
    Guarded.add_eq (by omega), Guarded.ok_bind]
  have hspan (text : String) (style : CellStyle) :
      ({ text, rowSpan := r.lineCount .row, colSpan := r.lineCount .column, style } : Cell).span
        axis = r.lineCount axis := by cases axis <;> rfl
  have hone : 1 ≤ r.lineCount axis := by omega
  simp only [hg.readCell_overlaid hrow' hcol' (hnew _ _ hcontains), hcount, Guarded.ok_bind, hspan,
    Guarded.sub_eq hone]
  rw [hcell] at hwrite
  rw [hplace]
  exact hwrite

/-- Any other region stays as it is. -/
theorem shrink_apart (h : Layout g R) (hf : g.Fits) (hr : r ∈ R)
    (hrun : ¬(r.first axis < pos ∧ pos ≤ r.last axis))
    (hheir : ¬(r.first axis = pos ∧ pos < r.last axis)) :
    Guarded.shrink axis pos (g.overlaid d (g.shrunkCell axis pos)) r =
      .ok (g.overlaid (d ++ [r.settledAt axis pos]) (g.shrunkCell axis pos)) := by
  have hi := h.indexed hf
  have hplace : r.settledAt axis pos = (r.minRow, r.minCol) := if_neg hheir
  have hsame : g.shrunkCell axis pos r.minRow r.minCol = g.cellAt r.minRow r.minCol := by
    refine h.shrunkCell_of_ne hi fun s hs hfirst hlast hlines heq => ?_
    have hsc := (h.ordered s hs).contains_settledAt axis pos
    rw [heq] at hsc
    obtain rfl := h.eq_of_contains hs hr hsc (h.ordered r hr).contains_first
    omega
  rw [hplace, overlaid_append_of_eq hsame, Guarded.shrink]
  split
  next hline =>
    obtain ⟨hfirst, hlast⟩ := CellRange.hasLine_iff.mp hline
    have hlines : r.lineCount axis = r.last axis - r.first axis + 1 := CellRange.lineCount_eq
    rw [if_neg (by omega), h.lineCount_guarded hf hr, Guarded.ok_bind, if_neg (by omega)]
    rfl
  next => rfl

end Shrink

theorem foldlM_shrink_eq (h : Layout g R) (hf : g.Fits) :
    g.regions.foldlM (Guarded.shrink axis pos) g =
      .ok (tabulate g.rows g.cols (g.shrunkCell axis pos)) := by
  have hg := h.stored hf
  have hi := h.indexed hf
  have hmem : ∀ r ∈ g.regions, r ∈ R := fun r hr => (h.mem_regions hi).mp hr
  have hnodup := h.firsts_nodup (t := fun r => r.settledAt axis pos) hmem g.regions_nodup
    fun r hr => (h.ordered r (hmem r hr)).contains_settledAt axis pos
  apply hg.foldlM_overlaid (t := fun r => r.settledAt axis pos)
  · intro done r rest hl
    have hr : r ∈ R := hmem r (by simp [hl])
    -- no region that is done covers a cell of this one
    have hnew (row col : Nat) (hc : r.contains row col = true) :
        (row, col) ∉ done.map fun r => r.settledAt axis pos := by
      intro hdone
      obtain ⟨s, hs, heq⟩ := List.mem_map.mp hdone
      have hsR := hmem s (by simp [hl, hs])
      have hsc := (h.ordered s hsR).contains_settledAt axis pos
      rw [heq] at hsc
      have hsr := h.eq_of_contains hsR hr hsc hc
      exact notMem_done (t := fun r => r.settledAt axis pos) hnodup hl
        (hsr ▸ List.mem_map_of_mem hs)
    by_cases hrun : r.first axis < pos ∧ pos ≤ r.last axis
    · exact h.shrink_running hf hr hrun hnew
    · by_cases hheir : r.first axis = pos ∧ pos < r.last axis
      · exact h.shrink_heir hf hr hheir hnew
      · exact h.shrink_apart hf hr hrun hheir
  · intro row _ col _ hout
    refine h.shrunkCell_of_ne hi fun r hr _ _ _ heq => ?_
    exact hout (List.mem_map.mpr ⟨r, (h.mem_regions hi).mpr hr, heq⟩)

theorem deleteRow_guarded (h : Layout g R) (hf : g.Fits) :
    Guarded.deleteRow g pos = .ok (g.deleteLineInPlace .row pos) := by
  have hg := h.stored hf
  refine Guarded.proceedIn_eq g (·.checkLine .row pos) fun _ hcheck => ?_
  have hpos : pos < g.rows := (check_eq_ok_iff.mp hcheck).1
  by_cases hone : g.rows = 1
  · rw [if_pos hone, if_pos (show g.lineCount .row = 1 from hone)]
    rfl
  · have hshrink : g.regions.foldlM (Guarded.shrink .row pos) g = _ := h.foldlM_shrink_eq hf
    have hstop : pos * g.cols + g.cols ≤ maxIndex := by
      rw [← Nat.succ_mul]
      exact (Nat.mul_le_mul_right _ hpos).trans hf
    have hwidth : ∀ l ∈ (List.range g.rows).map fun row =>
        (List.range g.cols).map (g.shrunkCell .row pos row), l.length = g.cols := by simp
    rw [if_neg hone, if_neg (show ¬g.lineCount .row = 1 from hone), hg.regions_eq, Guarded.ok_bind,
      hshrink, Guarded.ok_bind, Guarded.mul_eq (by omega), Guarded.ok_bind, Guarded.add_eq hstop,
      Guarded.ok_bind, tabulate_eq]
    simp only [toList_laidOut]
    rw [Guarded.drain_flatten hwidth (by simpa using hpos), erase_map_range hpos, Guarded.ok_bind,
      Guarded.sub_eq (show 1 ≤ g.rows from h.pos .row)]
    exact congrArg (fun g => Except.ok (Except.ok (), g)) (eq_tabulate_of_rows rfl)

theorem deleteCol_guarded (h : Layout g R) (hf : g.Fits) :
    Guarded.deleteCol g pos = .ok (g.deleteLineInPlace .column pos) := by
  have hg := h.stored hf
  refine Guarded.proceedIn_eq g (·.checkLine .column pos) fun _ hcheck => ?_
  have hpos : pos < g.cols := (check_eq_ok_iff.mp hcheck).2
  by_cases hone : g.cols = 1
  · rw [if_pos hone, if_pos (show g.lineCount .column = 1 from hone)]
    rfl
  · have hshrink : g.regions.foldlM (Guarded.shrink .column pos) g = _ := h.foldlM_shrink_eq hf
    have hwidth : ∀ l ∈ (List.range g.rows).map fun row =>
        (List.range g.cols).map (g.shrunkCell .column pos row), l.length = g.cols := by simp
    rw [if_neg hone, if_neg (show ¬g.lineCount .column = 1 from hone), hg.regions_eq,
      Guarded.ok_bind, hshrink, Guarded.ok_bind, tabulate_eq]
    simp only [toList_laidOut]
    rw [Guarded.chunks_flatten (show 0 < g.cols from h.pos .column) hwidth, Guarded.ok_bind,
      Guarded.sub_eq (show 1 ≤ g.cols from h.pos .column)]
    refine congrArg (fun g => Except.ok (Except.ok (), g)) (eq_tabulate_of_rows (f := fun row col =>
      g.shrunkCell .column pos row (shifted pos col)) ?_)
    rw [List.map_map]
    refine List.map_congr_left fun row _ => ?_
    have hrest := filter_zipIdx ((List.range g.cols).map (g.shrunkCell .column pos row)) pos 0
    rw [Nat.zero_add, erase_map_range hpos] at hrest
    exact hrest

theorem addRow_guarded (h : Layout g R) (hf : g.Fits) (hmax : g.rows + 1 ≤ maxIndex) :
    Guarded.addRow g = .ok g.addRow := by
  rw [Guarded.addRow, h.insertRow_guarded hf hmax]
  rfl

theorem addCol_guarded (h : Layout g R) (hf : g.Fits) (hmax : g.cols + 1 ≤ maxIndex) :
    Guarded.addCol g = .ok g.addCol := by
  rw [Guarded.addCol, h.insertCol_guarded hf hmax]
  rfl

end Layout

/-- When the cells of the grid with one column more can be counted, room is made for all of them. -/
theorem roomForCol_guarded (hmax : g.cols + 1 ≤ maxIndex) (hf : g.addCol.Fits) :
    Guarded.roomForCol g = .ok g.addCol.cells.size := by
  have hgrid : g.addCol = g.inserted .column g.cols := addLine_eq
  rw [hgrid] at hf ⊢
  have hsize : (g.inserted .column g.cols).cells.size = g.rows * (g.cols + 1) := inserted_full
  have hcells : g.rows * (g.cols + 1) ≤ maxIndex := hf
  rw [Guarded.roomForCol, Guarded.add_eq hmax, Guarded.ok_bind, Guarded.mul_eq hcells, hsize]

namespace Stored

theorem rowHasContent_eq (h : g.Stored) :
    Guarded.rowHasContent g pos = .ok (g.rowHasContent pos) := by
  have hany : ((List.range g.cols).map (g.cellAt pos)).any Cell.hasContent =
      (List.range g.cols).any fun col => (g.cellAt pos col).hasContent := by
    rw [List.any_map, Function.comp_def]
  have hrow : g.rowHasContent pos =
      g.row pos >>= fun cells => return cells.any Cell.hasContent := by
    simp only [row, bind_assoc, pure_bind, hany]
    rfl
  rw [Guarded.rowHasContent, h.row_eq, Guarded.ok_bind, hrow]
  exact Guarded.proceed_eq fun _ _ => rfl

theorem colHasContent_eq (h : g.Stored) :
    Guarded.colHasContent g pos = .ok (g.colHasContent pos) := by
  refine Guarded.proceed_eq fun _ hcheck => ?_
  have hpos : pos < g.cols := (check_eq_ok_iff.mp hcheck).2
  rw [Guarded.anyM_eq (p := fun row => (g.cellAt row pos).hasContent)]
  · rfl
  · intro row hrow
    rw [h.readCell_eq (List.mem_range.mp hrow) hpos]
    rfl

end Stored
end Grid
end LatexTable
