import LatexTable.Proofs.Grid.Deletion
import LatexTable.Proofs.Grid.Encoding
import LatexTable.Proofs.Grid.Insertion
import LatexTable.Proofs.Grid.Merge
import LatexTable.Proofs.Grid.Update
/-!
Runs of the public operations on a grid. Every operation that succeeds leaves some layout, and one
that is refused leaves the grid as it was, so that every reachable grid has a layout.
-/
namespace LatexTable.Grid
open InPlace

/-- A call of a public operation. A rectangle is given by two of its corners, in any order. -/
inductive Edit where
  | addRow
  | addCol
  | insertRow (pos : Nat)
  | insertCol (pos : Nat)
  | deleteRow (row : Nat)
  | deleteCol (col : Nat)
  | merge (rowA colA rowB colB : Nat)
  | split (rowA colA rowB colB : Nat)
  | setText (row col : Nat) (text : String)
  | updateCell (row col : Nat) (update : CellContent → CellContent)
  | updateEach (rowA colA rowB colB : Nat) (update : Nat → Nat → CellContent → CellContent)
  | applyStyle (rowA colA rowB colB focusRow focusCol : Nat) (command : StyleCommand)
  | clearStyles (rowA colA rowB colB : Nat)

namespace Edit

/-- What a call answers, without the value, and the grid that it leaves. -/
def call (g : Grid) : Edit → TableResult Unit × Grid
  | .addRow => (.ok (), g.addRow)
  | .addCol => (.ok (), g.addCol)
  | .insertRow pos => g.insertLineInPlace .row pos
  | .insertCol pos => g.insertLineInPlace .column pos
  | .deleteRow row => g.deleteLineInPlace .row row
  | .deleteCol col => g.deleteLineInPlace .column col
  | .merge rowA colA rowB colB => g.mergeInPlace (.ofCorners rowA colA rowB colB)
  | .split rowA colA rowB colB => silent (g.splitInPlace (.ofCorners rowA colA rowB colB))
  | .setText row col text => silent (g.setTextInPlace row col text)
  | .updateCell row col update => silent (g.updateCellInPlace row col update)
  | .updateEach rowA colA rowB colB update =>
    silent (g.updateEachInPlace (.ofCorners rowA colA rowB colB) update)
  | .applyStyle rowA colA rowB colB focusRow focusCol command =>
    silent (g.applyStyleInPlace (.ofCorners rowA colA rowB colB) focusRow focusCol command)
  | .clearStyles rowA colA rowB colB =>
    silent (g.clearStylesInPlace (.ofCorners rowA colA rowB colB))

def run (g : Grid) (e : Edit) : TableResult Grid := changed (e.call g)

end Edit

/-- The grid that a call leaves, whether it succeeds or not. -/
def after (g : Grid) (e : Edit) : Grid := (e.call g).2

/-- The grids of all runs in which the number of cells stays an index. -/
inductive Reachable : Grid → Prop where
  | blank (rows cols : Nat) : (Grid.blank rows cols).Fits → Reachable (Grid.blank rows cols)
  | ofTexts (texts : List (List String)) :
      (Grid.ofTexts texts).Fits → Reachable (Grid.ofTexts texts)
  | edit {g : Grid} (e : Edit) : Reachable g → (g.after e).Fits → Reachable (g.after e)

variable {g g' : Grid} {R : Set CellRange} {r : CellRange} {axis : Axis} {pos : Nat}

theorem addLine_eq : g.addLine axis = g.inserted axis (g.lineCount axis) := by
  rw [addLine, insertLineInPlace_eq, if_neg (lt_irrefl _), inserted]

/-- A call that is refused changes nothing. -/
theorem Edit.atomic (g : Grid) (e : Edit) : Atomic g (e.call g) := by
  cases e with
  | addRow | addCol => exact .of_ok
  | insertRow pos | insertCol pos => exact insertLine_atomic
  | deleteRow row | deleteCol col => exact deleteLine_atomic
  | merge rowA colA rowB colB => exact merge_atomic
  | split rowA colA rowB colB => exact split_atomic.silent
  | setText row col text | updateCell row col update => exact (updateCell_atomic _).silent
  | updateEach rowA colA rowB colB update | clearStyles rowA colA rowB colB =>
    exact (updateEach_atomic _).silent
  | applyStyle rowA colA rowB colB focusRow focusCol command =>
    exact (applyStyle_atomic command).silent

theorem after_of_ok {e : Edit} (he : e.run g = .ok g') : g.after e = g' :=
  congrArg Prod.snd (changed_eq_ok_iff.mp he)

theorem after_of_error {e : Edit} {err : TableError} (he : e.run g = .error err) :
    g.after e = g :=
  e.atomic g err (changed_eq_error_iff.mp he)

namespace Layout

theorem exists_insertLine (h : Layout g R) (hf : g.Fits) (hi : g.insertLine axis pos = .ok g') :
    ∃ R', Layout g' R' := by
  obtain ⟨-, rfl⟩ := insertLine_eq_ok_iff.mp hi
  exact ⟨_, h.inserted (h.indexed hf) axis pos⟩

theorem exists_deleteLine (h : Layout g R) (hf : g.Fits) (hd : g.deleteLine axis pos = .ok g') :
    ∃ R', Layout g' R' := by
  obtain ⟨⟨hp, hn⟩, rfl⟩ := (deleteLine_eq_ok_iff (h.pos axis.other)).mp hd
  exact ⟨_, h.deleted (h.indexed hf) hp hn⟩

theorem exists_addLine (h : Layout g R) (hf : g.Fits) (axis : Axis) :
    ∃ R', Layout (g.addLine axis) R' := by
  rw [addLine_eq]
  exact ⟨_, h.inserted (h.indexed hf) axis _⟩

theorem exists_merge (h : Layout g R) (hf : g.Fits) (hord : r.Ordered)
    (hm : g.merge r = .ok g') : ∃ R', Layout g' R' := by
  obtain ⟨hin, rfl⟩ := (merge_eq_ok_iff hord).mp hm
  cases hs : r.isSingle with
  | true => exact ⟨R, h⟩
  | false => exact ⟨_, h.merge (h.indexed hf) hord hin hs⟩

theorem exists_split {n : Nat} (h : Layout g R) (hf : g.Fits) (hord : r.Ordered)
    (hm : g.split r = .ok (g', n)) : ∃ R', Layout g' R' := by
  obtain ⟨-, rfl, -⟩ := (split_eq_ok_iff hord).mp hm
  exact ⟨_, h.split (h.indexed hf)⟩

/-- An operation that succeeds leaves a layout. -/
theorem exists_run (h : Layout g R) (hf : g.Fits) {e : Edit} (he : e.run g = .ok g') :
    ∃ R', Layout g' R' := by
  cases e with
  | addRow => exact Except.ok.inj he ▸ h.exists_addLine hf .row
  | addCol => exact Except.ok.inj he ▸ h.exists_addLine hf .column
  | insertRow pos => exact h.exists_insertLine hf he
  | insertCol pos => exact h.exists_insertLine hf he
  | deleteRow row => exact h.exists_deleteLine hf he
  | deleteCol col => exact h.exists_deleteLine hf he
  | merge rowA colA rowB colB =>
    exact h.exists_merge hf (CellRange.ofCorners_ordered rowA colA rowB colB) he
  | split rowA colA rowB colB =>
    obtain ⟨n, hs⟩ := changed_silent_eq_ok_iff.mp he
    exact h.exists_split hf (CellRange.ofCorners_ordered rowA colA rowB colB) hs
  | setText row col text | updateCell row col update =>
    obtain ⟨visible, hu⟩ := changed_silent_eq_ok_iff.mp he
    exact ⟨R, h.updateCell hu⟩
  | updateEach rowA colA rowB colB update | clearStyles rowA colA rowB colB =>
    obtain ⟨n, hu⟩ := changed_silent_eq_ok_iff.mp he
    exact ⟨R, h.updateEach hu⟩
  | applyStyle rowA colA rowB colB focusRow focusCol command =>
    obtain ⟨n, hu⟩ := changed_silent_eq_ok_iff.mp he
    exact ⟨R, h.applyStyle hu⟩

theorem exists_after (h : Layout g R) (hf : g.Fits) (e : Edit) : ∃ R', Layout (g.after e) R' :=
  (e.atomic g).cases ⟨R, h⟩ fun _ he => h.exists_run hf he

end Layout

theorem Reachable.of_run (h : Reachable g) {e : Edit} (he : e.run g = .ok g') (hf : g'.Fits) :
    Reachable g' := by
  rw [← after_of_ok he] at hf ⊢
  exact h.edit e hf

theorem Reachable.fits (h : Reachable g) : g.Fits := by
  cases h <;> assumption

/-- The number of cells stays an index when the size stays. -/
theorem Reachable.of_run_same_size (h : Reachable g) {e : Edit} (he : e.run g = .ok g')
    (hsize : g'.rows = g.rows ∧ g'.cols = g.cols) : Reachable g' := by
  apply h.of_run he
  rw [Fits, hsize.1, hsize.2]
  exact h.fits

theorem Reachable.exists_layout (h : Reachable g) : ∃ R, Layout g R := by
  induction h with
  | blank rows cols => exact ⟨∅, .blank rows cols⟩
  | ofTexts texts => exact ⟨∅, .ofTexts texts⟩
  | edit e hg _ ih =>
    obtain ⟨R, hR⟩ := ih
    exact hR.exists_after hg.fits e

/-- The regions that a reachable grid lists are laid out on it. -/
theorem Reachable.layout (h : Reachable g) : Layout g {r | r ∈ g.regions} := by
  obtain ⟨R, hR⟩ := h.exists_layout
  have hset : {r | r ∈ g.regions} = R := Set.ext fun _ => hR.mem_regions (hR.indexed h.fits)
  rwa [hset]

/-- In every reachable grid the visible cells and their footprints partition the grid, and
validation accepts it. -/
theorem reachable_partitioned (h : Reachable g) : g.Encoded ∧ g.validate = .ok () :=
  ⟨h.layout.encoded h.fits, h.layout.validate h.fits⟩

theorem reachable_partitioned_run :
    let g := (((Grid.blank 3 3).after (.merge 2 2 1 0)).after (.insertCol 1)).after (.deleteRow 1)
    g.Encoded ∧ g.validate = .ok () := by
  refine reachable_partitioned (.edit _ (.edit _ (.edit _ (.blank 3 3 ?_) ?_) ?_) ?_) <;> decide

end LatexTable.Grid
