import LatexTable.Document.Basic
import LatexTable.Proofs.Grid.Update
/-!
Setting the styles of a document: the last entry for a cell decides, and nothing but styles
changes.
-/
namespace LatexTable
open Result

/-- The style that the last entry for a place gives. -/
def StyleSpec.last? (styles : List StyleSpec) (row col : Nat) : Option CellStyle :=
  (styles.reverse.find? fun s => s.row = row && s.col = col).map StyleSpec.style

namespace StyleSpec

variable {s : StyleSpec} {styles : List StyleSpec} {row col : Nat} {style : CellStyle}

theorem last?_cons (s : StyleSpec) (styles : List StyleSpec) :
    last? (s :: styles) row col =
      (last? styles row col).or (if s.row = row ∧ s.col = col then some s.style else none) := by
  simp only [last?, List.reverse_cons, List.find?_append, Option.map_or, List.find?_singleton,
    Bool.and_eq_true, decide_eq_true_eq]
  split <;> rfl

theorem exists_of_last? (h : last? styles row col = some style) : ⟨row, col, style⟩ ∈ styles := by
  obtain ⟨s, hs, rfl⟩ := Option.map_eq_some_iff.mp h
  have hplace := List.find?_some hs
  rw [Bool.and_eq_true, decide_eq_true_eq, decide_eq_true_eq] at hplace
  obtain ⟨rfl, rfl⟩ := hplace
  exact List.mem_reverse.mp (List.mem_of_find?_eq_some hs)

theorem last?_eq_none :
    last? styles row col = none ↔ ∀ s ∈ styles, ¬(s.row = row ∧ s.col = col) := by
  simp [last?, List.find?_eq_none]

end StyleSpec

namespace Grid

variable {g g' : Grid} {s : StyleSpec} {styles : List StyleSpec} {row col : Nat}

/-- The grid with the styles that the entries give to its cells. -/
def restyled (g : Grid) (styles : List StyleSpec) : Grid :=
  tabulate g.rows g.cols fun row col =>
    { g.cellAt row col with
      style := (StyleSpec.last? styles row col).getD (g.cellAt row col).style }

theorem restyled_full : (g.restyled styles).Full := tabulate_full ..

theorem cellAt_restyled (hr : row < g.rows) (hc : col < g.cols) :
    (g.restyled styles).cellAt row col =
      { g.cellAt row col with
        style := (StyleSpec.last? styles row col).getD (g.cellAt row col).style } :=
  cellAt_tabulate hr hc

@[simp] theorem hidden_restyled (row col : Nat) :
    ((g.restyled styles).cellAt row col).hidden = (g.cellAt row col).hidden := by
  by_cases hin : row < g.rows ∧ col < g.cols
  · rw [cellAt_restyled hin.1 hin.2]
  · rw [cellAt_of_not_lt (g := g.restyled styles) hin, cellAt_of_not_lt hin]

theorem restyled_nil (hg : g.Full) : g.restyled [] = g :=
  restyled_full.ext hg rfl rfl fun _ _ hr hc => cellAt_restyled hr hc

theorem restyled_cons (s : StyleSpec) (styles : List StyleSpec) :
    g.restyled (s :: styles) = (g.restyled [s]).restyled styles := by
  refine restyled_full.ext restyled_full rfl rfl ?_
  intro row col (hr : row < g.rows) (hc : col < g.cols)
  rw [cellAt_restyled hr hc, cellAt_restyled (g := g.restyled [s]) hr hc, cellAt_restyled hr hc,
    StyleSpec.last?_cons s styles, StyleSpec.last?_cons s []]
  cases StyleSpec.last? styles row col <;> simp [StyleSpec.last?]

end Grid

namespace TableDocument

variable {g g' : Grid} {s : StyleSpec} {styles : List StyleSpec}

/-- An entry sets the style of a visible cell. -/
theorem addStyle_visible (hin : s.row < g.rows ∧ s.col < g.cols)
    (hv : (g.cellAt s.row s.col).hidden = false) : addStyle g s = .ok (g.restyled [s]) := by
  have hset : g.setStyle s.row s.col s.style = .ok (g.restyled [s], true) := by
    rw [Grid.setStyle, Grid.updateCell_eq, Grid.check_eq_ok_iff.mpr hin]
    simp only [hv]
    refine congrArg (fun h => Except.ok (h, true)) ?_
    refine (Grid.tabulate_full ..).ext Grid.restyled_full rfl rfl ?_
    intro row col (hr : row < g.rows) (hc : col < g.cols)
    rw [Grid.cellAt_tabulate hr hc, Grid.cellAt_restyled hr hc, StyleSpec.last?_cons]
    by_cases hplace : row = s.row ∧ col = s.col
    · obtain ⟨rfl, rfl⟩ := hplace
      simp [Cell.update, hv, Cell.content, StyleSpec.last?]
    · have hother : ¬(s.row = row ∧ s.col = col) := fun h => hplace ⟨h.1.symm, h.2.symm⟩
      simp [hplace, hother, StyleSpec.last?]
  simp only [addStyle, hset]
  rfl

/-- The entry names a visible cell. -/
def Targets (g : Grid) (s : StyleSpec) : Prop :=
  (s.row < g.rows ∧ s.col < g.cols) ∧ (g.cellAt s.row s.col).hidden = false

theorem addStyle_eq_ok_iff : addStyle g s = .ok g' ↔ Targets g s ∧ g' = g.restyled [s] := by
  constructor
  · intro h
    have htarget : Targets g s := by
      obtain ⟨⟨grid, applied⟩, hset, happlied⟩ := bind_eq_ok.mp h
      rw [Grid.setStyle, Grid.updateCell_eq] at hset
      obtain ⟨hcheck, hset⟩ := check_bind_eq_ok.mp hset
      refine ⟨Grid.check_eq_ok_iff.mp hcheck, ?_⟩
      by_contra hh
      rw [if_pos ((Bool.not_eq_false _).mp hh), pure_eq_ok, Prod.mk.injEq] at hset
      obtain ⟨-, rfl⟩ := hset
      cases happlied
    rw [addStyle_visible htarget.1 htarget.2] at h
    exact ⟨htarget, (Except.ok.inj h).symm⟩
  · rintro ⟨htarget, rfl⟩
    exact addStyle_visible htarget.1 htarget.2

theorem targets_restyled : Targets (g.restyled styles) s ↔ Targets g s := by
  rw [Targets, Grid.hidden_restyled]
  rfl

/-- Entries are accepted exactly when they all name visible cells, and the last one for a cell
decides. -/
theorem foldlM_addStyle_eq_ok_iff (hg : g.Full) :
    styles.foldlM addStyle g = .ok g' ↔ (∀ s ∈ styles, Targets g s) ∧ g' = g.restyled styles := by
  induction styles generalizing g with
  | nil =>
    rw [Grid.restyled_nil hg, List.foldlM_nil, pure_eq_ok]
    simp
  | cons s styles ih =>
    simp only [List.foldlM_cons, bind_eq_ok, addStyle_eq_ok_iff, and_assoc, exists_and_left,
      exists_eq_left, ih Grid.restyled_full, List.forall_mem_cons, ← Grid.restyled_cons]
    simp only [targets_restyled]

end TableDocument
end LatexTable
