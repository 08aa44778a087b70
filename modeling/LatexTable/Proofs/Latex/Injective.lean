import LatexTable.Latex.Render
import LatexTable.Proofs.Grid.Reachable
import LatexTable.Proofs.Latex.TabularReader
import LatexTable.Proofs.Latex.TblrReader
/-!
Source loses no region and no text: grids that are written alike, in any one dialect, have the same
size, the same regions, and the same texts up to white space around them.
-/
namespace LatexTable.Grid
open Text

variable {g g' : Grid} {R S : Set CellRange} (dialect : Dialect) (specs : ColumnSpecs)
  (o : TableOptions)

/-- Each dialect has a reader of its own. -/
theorem Layout.alike_of_latex (h : g.Layout R) (h' : g'.Layout S) (hf : g.Fits) (hf' : g'.Fits)
    (hw : g.Writable) (hw' : g'.Writable)
    (heq : g.latex dialect specs o = g'.latex dialect specs o) : g.Alike g' R S := by
  cases dialect with
  | modern => exact Latex.alike_of_tblrTable h h' hw hw' heq
  | plain => exact Latex.alike_of_plainTable h h' hf hf' hw hw' heq
  | rules => exact Latex.alike_of_rulesTable h h' hf hf' hw hw' heq

theorem writable_of_cells (h : ∀ c ∈ g.cells, c.Writable) : g.Writable := by
  have hempty : Cell.empty.Writable := ⟨by simp [Cell.empty], nofun, nofun⟩
  intro row col
  unfold cellAt get?
  split
  · cases hc : g.cells[row * g.cols + col]? with
    | none => exact hempty
    | some c => exact h c (Array.mem_of_getElem? hc)
  · exact hempty

theorem tblrTable_congr (hdefinitions : Latex.definitions g = Latex.definitions g')
    (hheader : Latex.tblrHeader g specs o = Latex.tblrHeader g' specs o)
    (hbody : g.rowList.map Latex.bodyLine = g'.rowList.map Latex.bodyLine) :
    g.latex .modern specs o = g'.latex .modern specs o := by
  unfold latex Latex.tblrTable
  rw [hdefinitions, hheader, hbody]

/-- Reachable grids with equal source agree in size, regions and visible texts. -/
theorem latex_injective (h : g.Reachable) (h' : g'.Reachable) (hw : g.Writable)
    (hw' : g'.Writable) (heq : g.latex dialect specs o = g'.latex dialect specs o) :
    g.rows = g'.rows ∧ g.cols = g'.cols ∧ g.regions = g'.regions ∧
      ∀ row < g.rows, ∀ col < g.cols, (g.cellAt row col).hidden = (g'.cellAt row col).hidden ∧
        ((g.cellAt row col).hidden = false →
          trim (g.cellAt row col).text = trim (g'.cellAt row col).text) := by
  have halike := h.layout.alike_of_latex dialect specs o h'.layout h.fits h'.fits hw hw' heq
  have hlayout := h'.layout
  rw [← halike.regions] at hlayout
  refine ⟨halike.rows, halike.cols, ?_, fun row hr col hc => ⟨?_, fun hv => ?_⟩⟩
  · exact h.layout.regions_eq_of_same hlayout h.fits h'.fits halike.rows halike.cols
  · exact h.layout.hidden_eq_of_same hlayout
  · apply String.toList_injective
    rw [toList_trim, toList_trim]
    exact halike.texts row hr col hc hv

theorem latex_injective_trimmed :
    let red : Edit := .applyStyle 0 1 0 1 0 1 (.background (some (.named "red")))
    let g := (((Grid.blank 2 2).after red).after (.setText 0 0 "x ")).after (.merge 0 0 1 0)
    let g' := (((Grid.blank 2 2).after (.merge 1 0 0 0)).after (.setText 0 0 "x")).after red
    g.rows = g'.rows ∧ g.cols = g'.cols ∧ g.regions = g'.regions ∧
      ∀ row < g.rows, ∀ col < g.cols, (g.cellAt row col).hidden = (g'.cellAt row col).hidden ∧
        ((g.cellAt row col).hidden = false →
          trim (g.cellAt row col).text = trim (g'.cellAt row col).text) := by
  have hwritable (c : Cell) (hc : c.text ∈ ["", "x", "x "] ∧ c.style.foreground = none ∧
      c.style.background ∈ [none, some (.named "red")]) : c.Writable := by
    obtain ⟨htext, hforeground, hbackground⟩ := hc
    have hparse : Color.parse "red" = .ok (.named "red") := by decide +kernel
    refine ⟨?_, ?_, ?_⟩
    · simp only [List.mem_cons, List.not_mem_nil, or_false] at htext
      rcases htext with htext | htext | htext <;> simp [htext]
    · intro color hcolor
      rw [hforeground] at hcolor
      cases hcolor
    · intro color hcolor
      rcases List.mem_pair.mp hbackground with hb | hb <;> rw [hb] at hcolor <;> cases hcolor
      exact ⟨_, hparse⟩
  refine latex_injective .modern (.blank 2) .default
    (.edit _ (.edit _ (.edit _ (.blank 2 2 ?_) ?_) ?_) ?_)
    (.edit _ (.edit _ (.edit _ (.blank 2 2 ?_) ?_) ?_) ?_)
    (writable_of_cells fun c hc => hwritable c ?_) (writable_of_cells fun c hc => hwritable c ?_)
    (tblrTable_congr _ _ ?_ ?_ ?_)
  case refine_9 => revert c; decide +kernel
  case refine_10 => revert c; decide +kernel
  all_goals decide +kernel

end LatexTable.Grid
