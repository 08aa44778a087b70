import LatexTable.Grid.Lines
import LatexTable.Grid.Merge
import LatexTable.Grid.Update
import LatexTable.Proofs.InPlace
/-!
The operations on a grid check their arguments before they change a cell: each is refused by its
checks alone, and leaves the grid as it was then.
-/
namespace LatexTable.Grid
open InPlace

variable {g : Grid} {r : CellRange} {axis : Axis} {pos row col : Nat}

theorem insertLineInPlace_eq : g.insertLineInPlace axis pos =
    if g.lineCount axis < pos then (.error (g.outsideLine axis pos), g)
    else (.ok (), g.tabulateLines axis (g.lineCount axis + 1)
      (g.insertedCell axis pos (g.runningThrough axis pos))) := by
  unfold insertLineInPlace
  split <;> rfl

theorem insertLine_eq : g.insertLine axis pos =
    if g.lineCount axis < pos then .error (g.outsideLine axis pos)
    else .ok (g.tabulateLines axis (g.lineCount axis + 1)
      (g.insertedCell axis pos (g.runningThrough axis pos))) := by
  rw [insertLine, insertLineInPlace_eq]
  split <;> rfl

theorem deleteLine_eq : g.deleteLine axis pos = do
    g.checkLine axis pos
    if g.lineCount axis = 1 then .error (.minimumSize axis)
    else return g.tabulateLines axis (g.lineCount axis - 1) fun line offset =>
      g.settledCell axis pos (g.meeting axis pos) (shifted pos line) offset := by
  rw [deleteLine, deleteLineInPlace, changed_ask_bind]
  refine bind_congr fun _ => ?_
  split <;> rfl

theorem merge_eq : g.merge r = do
    g.checkRange r
    if r.isSingle then return g
    else return (g.dissolve (g.regions.filter (·.intersects r))).cover r := by
  rw [merge, mergeInPlace, changed_ask_bind]
  refine bind_congr fun _ => ?_
  split <;> rfl

theorem split_eq : g.split r = do
    g.checkRange r
    let targets := g.regions.filter fun region => r.contains region.minRow region.minCol
    return (g.dissolve targets, targets.length) := by
  rw [split, splitInPlace, answered_ask_bind]
  rfl

theorem updateEach_eq {f : Nat → Nat → CellContent → CellContent} : g.updateEach r f = do
    g.checkRange r
    let updated := tabulate g.rows g.cols fun row col =>
      if r.contains row col then (g.cellAt row col).update (f row col) else g.cellAt row col
    return (updated, r.cells.countP fun (row, col) => !(g.cellAt row col).hidden) := by
  rw [updateEach, updateEachInPlace, answered_ask_bind]
  rfl

theorem updateCell_eq {f : CellContent → CellContent} : g.updateCell row col f = do
    g.check row col
    if (g.cellAt row col).hidden then return (g, false)
    else
      let updated := tabulate g.rows g.cols fun r c =>
        if r = row && c = col then (g.cellAt r c).update f else g.cellAt r c
      return (updated, true) := by
  rw [updateCell, updateCellInPlace, answered_ask_bind]
  refine bind_congr fun _ => ?_
  split <;> rfl

theorem applyStyle_eq {focusRow focusCol : Nat} {command : StyleCommand} :
    g.applyStyle r focusRow focusCol command =
      g.cell focusRow focusCol >>= fun focused => g.updateRange r fun content =>
        { content with style := command.apply focused.style content.style } := by
  rw [applyStyle, applyStyleInPlace, answered_ask_bind]
  rfl

theorem insertLine_atomic : Atomic g (g.insertLineInPlace axis pos) := by
  rw [insertLineInPlace_eq]
  split
  · exact .of_error
  · exact .of_ok

theorem deleteLine_atomic : Atomic g (g.deleteLineInPlace axis pos) := by
  refine .ask_bind fun _ _ => ?_
  split
  · exact .of_error
  · exact .of_ok

theorem merge_atomic : Atomic g (g.mergeInPlace r) := by
  refine .ask_bind fun _ _ => ?_
  split <;> exact .of_ok

theorem split_atomic : Atomic g (g.splitInPlace r) := .ask_bind fun _ _ => .of_ok

theorem updateEach_atomic (f : Nat → Nat → CellContent → CellContent) :
    Atomic g (g.updateEachInPlace r f) := .ask_bind fun _ _ => .of_ok

theorem updateCell_atomic (f : CellContent → CellContent) :
    Atomic g (g.updateCellInPlace row col f) := by
  refine .ask_bind fun _ _ => ?_
  split <;> exact .of_ok

theorem applyStyle_atomic {focusRow focusCol : Nat} (command : StyleCommand) :
    Atomic g (g.applyStyleInPlace r focusRow focusCol command) := by
  refine .ask_bind fun _ _ => ?_
  rw [perform_call]
  exact updateEach_atomic _

end LatexTable.Grid
