import LatexTable.Latex.Boundary
import LatexTable.Proofs.Latex.RowTiling
/-!
The lines below a row. They are drawn over the columns where no region runs on into the next row,
and the columns that they leave out are those of the next row's continuation units.
-/
namespace LatexTable
open Latex

/-- Runs of columns, each as its first column and the column behind its last one: none is empty,
they go from left to right with a column between any two, and together they are the columns with
the property. -/
structure IsRuns (runs : List (Nat × Nat)) (cols : Nat) (free : Nat → Prop) : Prop where
  nonempty : ∀ p ∈ runs, p.1 < p.2
  inside : ∀ p ∈ runs, p.2 ≤ cols
  apart : runs.Pairwise fun p q => p.2 < q.1
  columns : ∀ col, (∃ p ∈ runs, p.1 ≤ col ∧ col < p.2) ↔ col < cols ∧ free col

/-- The columns that a line covers in a table of so many columns. -/
def HorizontalLine.Covers (l : HorizontalLine) (cols col : Nat) : Prop :=
  l.start.getD 0 ≤ col ∧ col < l.stop.getD cols

/-- A line from one column to another as source, both counted from one. The rules at the top and
at the bottom of a table have no form for some of its columns. -/
def LineStyle.partialText (first last : Nat) : LineStyle → String
  | .normal => "\\cline" ++ braced s!"{first}-{last}"
  | .mid => "\\cmidrule(lr)" ++ braced s!"{first}-{last}"
  | .top => "\\toprule"
  | .bottom => "\\bottomrule"

/-- The region has a cell in the row and one in the next row. -/
def CellRange.RunsOn (r : CellRange) (row : Nat) : Prop := r.minRow ≤ row ∧ row < r.maxRow

namespace Grid

variable {g : Grid} {R : Set CellRange} {row col c : Nat} {run : Option Nat} {flag : Bool}
  {flags : List Bool} {style : LineStyle}

section Runs

/-- The first column of a scan is free, or a later one is. -/
theorem free_from_iff :
    (col ≤ c ∧ (flag :: flags)[c - col]? = some false) ↔
      (c = col ∧ flag = false) ∨ (col + 1 ≤ c ∧ flags[c - (col + 1)]? = some false) := by
  rcases Nat.lt_trichotomy c col with hlt | rfl | hgt
  · omega
  · simp
  · have hnext : c - col = c - (col + 1) + 1 := by omega
    rw [hnext, List.getElem?_cons_succ]
    have hne : c ≠ col := by omega
    have hle : col ≤ c := by omega
    have hle' : col + 1 ≤ c := by omega
    simp [hne, hle, hle']

/-! At every column of a scan the run that has begun, if there is one, began to the left of it. -/

theorem no_run : ∀ start ∈ (none : Option Nat), start < col := nofun

theorem run_begins : ∀ start ∈ (if flag then none else some col), start < col + 1 := by
  cases flag <;> simp

theorem run_goes_on {start : Nat} (hstart : start < col) : ∀ s ∈ some start, s < col + 1 := by
  intro s hs
  obtain rfl := Option.mem_some.mp hs
  exact Nat.lt_succ_of_lt hstart

/-- A run begins where one has begun already, or further on, and it ends in the row. -/
theorem bounds_of_mem_freeRuns (hrun : ∀ start ∈ run, start < col) :
    ∀ p ∈ freeRuns col run flags, run.getD col ≤ p.1 ∧ p.1 < p.2 ∧ p.2 ≤ col + flags.length := by
  fun_induction freeRuns col run flags with
  | case1 col =>
    intro p hp
    cases hp
  | case2 col start =>
    intro p hp
    obtain rfl := List.mem_singleton.mp hp
    exact ⟨le_rfl, hrun start rfl, le_rfl⟩
  | case3 col flag flags ih =>
    intro p hp
    obtain ⟨hlo, hlt, hhi⟩ := ih run_begins p hp
    have hcol : col ≤ (if flag then none else some col).getD (col + 1) := by
      cases flag <;> simp
    simp only [Option.getD_none, List.length_cons]
    omega
  | case4 col start flags ih =>
    intro p hp
    have hstart := hrun start rfl
    simp only [Option.getD_some, List.length_cons]
    rcases List.mem_cons.mp hp with rfl | hp
    · dsimp only
      omega
    · obtain ⟨hlo, hlt, hhi⟩ := ih no_run p hp
      rw [Option.getD_none] at hlo
      omega
  | case5 col start flag flags hfree ih =>
    intro p hp
    obtain ⟨hlo, hlt, hhi⟩ := ih (run_goes_on (hrun start rfl)) p hp
    rw [Option.getD_some] at hlo ⊢
    rw [List.length_cons]
    omega

/-- A column is left out between any two runs. -/
theorem freeRuns_apart (hrun : ∀ start ∈ run, start < col) :
    (freeRuns col run flags).Pairwise fun p q => p.2 < q.1 := by
  fun_induction freeRuns col run flags with
  | case1 col => exact .nil
  | case2 col start => exact List.pairwise_singleton _ _
  | case3 col flag flags ih => exact ih run_begins
  | case4 col start flags ih =>
    refine List.pairwise_cons.mpr ⟨?_, ih no_run⟩
    intro q hq
    obtain ⟨hlo, -⟩ := bounds_of_mem_freeRuns no_run q hq
    exact hlo
  | case5 col start flag flags hfree ih => exact ih (run_goes_on (hrun start rfl))

/-- A column is in a run when the run that has begun already has it, or when it is free. -/
theorem mem_freeRuns_iff (hrun : ∀ start ∈ run, start < col) :
    (∃ p ∈ freeRuns col run flags, p.1 ≤ c ∧ c < p.2) ↔
      (run.getD col ≤ c ∧ c < col) ∨ (col ≤ c ∧ flags[c - col]? = some false) := by
  have hempty (n : Nat) : ¬(n ≤ c ∧ c < n) := by omega
  fun_induction freeRuns col run flags with
  | case1 col => simp [hempty]
  | case2 col start => simp
  | case3 col flag flags ih =>
    have hone : col ≤ c ∧ c < col + 1 ↔ c = col := by omega
    refine (ih run_begins).trans ?_
    rw [free_from_iff]
    cases flag with
    | true =>
      simp only [if_true, Option.getD_none, hempty, Bool.true_eq_false, and_false, false_or]
    | false =>
      simp only [Bool.false_eq_true, if_false, Option.getD_some, Option.getD_none, hone, hempty,
        false_or, and_true]
  | case4 col start flags ih =>
    simp only [List.mem_cons, or_and_right, exists_or, exists_eq_left, free_from_iff]
    refine (or_congr_right (ih no_run)).trans ?_
    simp only [Option.getD_some, Option.getD_none, hempty, Bool.true_eq_false, and_false, false_or]
  | case5 col start flag flags hfree ih =>
    have hstart := hrun start rfl
    have hlonger : start ≤ c ∧ c < col + 1 ↔ (start ≤ c ∧ c < col) ∨ c = col := by omega
    refine (ih (run_goes_on hstart)).trans ?_
    obtain rfl : flag = false := Bool.eq_false_iff.mpr hfree
    rw [free_from_iff]
    simp only [Option.getD_some, hlonger, and_true, or_assoc]

/-- The scan of a whole row finds the runs of its free columns. -/
theorem isRuns_freeRuns (flags : List Bool) :
    IsRuns (freeRuns 0 none flags) flags.length fun col => flags[col]? = some false where
  nonempty := by
    intro p hp
    exact (bounds_of_mem_freeRuns no_run p hp).2.1
  inside := by
    intro p hp
    have hhi := (bounds_of_mem_freeRuns no_run p hp).2.2
    rwa [Nat.zero_add] at hhi
  apart := freeRuns_apart no_run
  columns := by
    intro col
    rw [mem_freeRuns_iff no_run]
    constructor
    · intro hcol
      rcases hcol with ⟨-, hlt⟩ | ⟨-, hfree⟩
      · exact absurd hlt (Nat.not_lt_zero col)
      · exact ⟨(List.getElem?_eq_some_iff.mp hfree).1, hfree⟩
    · intro hcol
      exact .inr ⟨Nat.zero_le col, hcol.2⟩

end Runs

/-- A region runs through the boundary below the row in this column. -/
def Crossed (g : Grid) (row col : Nat) : Prop :=
  ∃ r ∈ g.regions, r.RunsOn row ∧ r.minCol ≤ col ∧ col ≤ r.maxCol

/-- A continuation unit of the row takes this column. -/
def Continued (g : Grid) (row col : Nat) : Prop :=
  ∃ start owner, .continuation start owner ∈ g.rowUnits row ∧
    start ≤ col ∧ col < start + (RowUnit.continuation start owner).width

section Marks

theorem length_blocked : (g.blocked row).length = g.cols := by simp [blocked]

/-- The mark of a column says whether it is crossed. -/
theorem getElem?_blocked :
    (g.blocked row)[col]? = some flag ↔ col < g.cols ∧ (flag = true ↔ g.Crossed row col) := by
  have hmark : ((g.crossing row).any fun r => r.minCol ≤ col && col ≤ r.maxCol) = true ↔
      g.Crossed row col := by
    simp [crossing, Crossed, CellRange.RunsOn, and_assoc]
  by_cases hcol : col < g.cols
  · rw [blocked, List.getElem?_map, List.getElem?_range hcol]
    simp only [Option.map_some, Option.some.injEq, hcol, true_and, ← hmark]
    rw [Bool.eq_iff_iff]
    exact iff_comm
  · have hnone : (g.blocked row)[col]? = none :=
      List.getElem?_eq_none (by rw [length_blocked]; exact not_lt.mp hcol)
    simp [hnone, hcol]

/-- A column is marked as soon as a region runs through the boundary. -/
theorem Layout.contains_blocked_iff (h : Layout g R) (hf : g.Fits) :
    (g.blocked row).contains true = true ↔ ∃ r ∈ g.regions, r.RunsOn row := by
  rw [List.contains_iff_mem, List.mem_iff_getElem?]
  constructor
  · intro hmark
    obtain ⟨col, hcol⟩ := hmark
    obtain ⟨-, hcrossed⟩ := getElem?_blocked.mp hcol
    obtain ⟨r, hr, hruns, -⟩ := hcrossed.mp rfl
    exact ⟨r, hr, hruns⟩
  · intro hruns
    obtain ⟨r, hr, hruns⟩ := hruns
    have hrR := (h.mem_regions (h.indexed hf)).mp hr
    have hord : r.minCol ≤ r.maxCol := h.ordered r hrR .column
    refine ⟨r.minCol, getElem?_blocked.mpr ⟨(h.first_lt hrR).2, ?_⟩⟩
    exact iff_of_true rfl ⟨r, hr, hruns, le_rfl, hord⟩

end Marks

section Continuations

theorem rowUnits_of_le (hrow : g.rows ≤ row) : g.rowUnits row = [] := by
  have houtside : g.unitStart row 0 = .outside := by
    simp [unitStart, get?, hrow.not_gt]
  rw [rowUnits, unitStarts, unitStartsFrom]
  split
  · simp [houtside, UnitStart.unit?]
  · rfl

namespace Layout

/-- The continuation units of a row are those of the regions that began above it; behind the last
row there is none. -/
theorem continuation_mem_rowUnits (h : Layout g R) (hf : g.Fits) {owner : Cell} :
    .continuation col owner ∈ g.rowUnits row ↔ ∃ r ∈ R, (r.minRow < row ∧ row ≤ r.maxRow) ∧
      r.minCol = col ∧ g.cellAt r.minRow r.minCol = owner := by
  rcases lt_or_ge row g.rows with hrow | hrow
  · rw [h.mem_rowUnits_iff hf hrow]
    simp [visibleUnits, continuationUnits, h.mem_regions (h.indexed hf), and_assoc]
  · rw [rowUnits_of_le hrow]
    refine iff_of_false List.not_mem_nil ?_
    intro hunit
    obtain ⟨r, hr, ⟨-, hmax⟩, -⟩ := hunit
    have hlast : r.maxRow < g.rows := h.inside r hr .row
    omega

/-- What crosses a boundary is continued below it. -/
theorem continued_iff (h : Layout g R) (hf : g.Fits) :
    g.Continued (row + 1) col ↔ g.Crossed row col := by
  have hwidth {r : CellRange} (hr : r ∈ R) : ∀ start,
      (RowUnit.continuation start (g.cellAt r.minRow r.minCol)).width = r.colCount := by
    intro start
    have hspan : (g.cellAt r.minRow r.minCol).colSpan = r.colCount :=
      (h.owner r hr _ _ r.startsAt_first).2 .column
    rw [RowUnit.width, RowUnit.cell, hspan]
    exact max_eq_left (Nat.succ_pos _)
  have hlast {r : CellRange} (hr : r ∈ R) : col < r.minCol + r.colCount ↔ col ≤ r.maxCol := by
    have hord : r.minCol ≤ r.maxCol := h.ordered r hr .column
    rw [CellRange.colCount]
    omega
  constructor
  · intro hcontinued
    obtain ⟨start, owner, hunit, hlo, hhi⟩ := hcontinued
    obtain ⟨r, hr, ⟨hmin, hmax⟩, rfl, rfl⟩ := (h.continuation_mem_rowUnits hf).mp hunit
    rw [hwidth hr, hlast hr] at hhi
    exact ⟨r, (h.mem_regions (h.indexed hf)).mpr hr, ⟨Nat.le_of_lt_succ hmin, hmax⟩, hlo, hhi⟩
  · intro hcrossed
    obtain ⟨r, hr, ⟨hmin, hmax⟩, hlo, hhi⟩ := hcrossed
    have hrR := (h.mem_regions (h.indexed hf)).mp hr
    have hunit := (h.continuation_mem_rowUnits hf).mpr
      ⟨r, hrR, ⟨Nat.lt_succ_of_le hmin, hmax⟩, rfl, rfl⟩
    refine ⟨_, _, hunit, hlo, ?_⟩
    rwa [hwidth hrR, hlast hrR]

end Layout

end Continuations

/-- The lines below a row of the grid: one over the whole row, or one for each run of columns in
which no region runs on. The columns that are left out are those of the continuation units of the
next row, and a line over some of the columns is written with its first and its last one. -/
structure BoundaryDrawn (g : Grid) (row : Nat) (style : LineStyle) (lines : List HorizontalLine) :
    Prop where
  whole : (∀ r ∈ g.regions, ¬r.RunsOn row) → lines = [.full style]
  broken : (∃ r ∈ g.regions, r.RunsOn row) →
    ∃ runs, lines = (runs.map fun p => .partially p.1 p.2 style) ∧
      IsRuns runs g.cols fun col => ¬g.Crossed row col
  left_out : ∀ col < g.cols, (∀ l ∈ lines, ¬l.Covers g.cols col) ↔ g.Continued (row + 1) col
  printed : ∀ l ∈ lines, l ≠ .full style → ∃ first last, l.bounds? g.cols = some (first, last) ∧
    (1 ≤ first ∧ first ≤ last ∧ last ≤ g.cols) ∧
    (∀ col, l.Covers g.cols col ↔ first ≤ col + 1 ∧ col + 1 ≤ last) ∧
    l.latex g.cols = style.partialText first last

section Drawing

variable {start stop cols : Nat} {runs : List (Nat × Nat)}

theorem covers_full : (HorizontalLine.full style).Covers g.cols col ↔ col < g.cols := by
  simp [HorizontalLine.Covers, HorizontalLine.full]

theorem covers_partially :
    (HorizontalLine.partially start stop style).Covers cols col ↔ start ≤ col ∧ col < stop :=
  Iff.rfl

theorem left_out_iff :
    (∀ l ∈ runs.map fun p => HorizontalLine.partially p.1 p.2 style, ¬l.Covers cols col) ↔
      ¬∃ p ∈ runs, p.1 ≤ col ∧ col < p.2 := by
  simp only [List.forall_mem_map, covers_partially, not_exists, not_and]

/-- The lines below a row are one whole line, or the lines over the runs that no region crosses. -/
theorem Layout.boundaryLines_cases (h : Layout g R) (hf : g.Fits) (row : Nat) (style : LineStyle) :
    ((∀ r ∈ g.regions, ¬r.RunsOn row) ∧ g.boundaryLines row style = [.full style]) ∨
      ((∃ r ∈ g.regions, r.RunsOn row) ∧
        ∃ runs, g.boundaryLines row style = (runs.map fun p => .partially p.1 p.2 style) ∧
          IsRuns runs g.cols fun col => ¬g.Crossed row col) := by
  by_cases hmark : (g.blocked row).contains true = true
  · refine .inr ⟨(h.contains_blocked_iff hf).mp hmark, freeRuns 0 none (g.blocked row), ?_, ?_⟩
    · rw [boundaryLines]
      exact if_pos hmark
    · have hruns := isRuns_freeRuns (g.blocked row)
      rw [length_blocked] at hruns
      refine { hruns with columns := ?_ }
      intro col
      rw [hruns.columns, getElem?_blocked]
      simp
  · refine .inl ⟨?_, ?_⟩
    · intro r hr hruns
      exact hmark ((h.contains_blocked_iff hf).mpr ⟨r, hr, hruns⟩)
    · rw [boundaryLines]
      exact if_neg hmark

theorem latex_partially :
    (HorizontalLine.partially start stop style).latex cols =
      style.partialText (start + 1) stop := by
  cases style <;> rfl

/-- A whole line is drawn where no region runs on. -/
theorem Layout.drawn_whole (h : Layout g R) (hf : g.Fits)
    (hnone : ∀ r ∈ g.regions, ¬r.RunsOn row) : g.BoundaryDrawn row style [.full style] where
  whole _ := rfl
  broken := by
    intro hruns
    obtain ⟨r, hr, hruns⟩ := hruns
    exact absurd hruns (hnone r hr)
  left_out := by
    intro col hcol
    rw [h.continued_iff hf, List.forall_mem_singleton, covers_full]
    refine iff_of_false (not_not.mpr hcol) ?_
    intro hcrossed
    obtain ⟨r, hr, hruns, -⟩ := hcrossed
    exact hnone r hr hruns
  printed := by
    intro l hl hpart
    exact absurd (List.mem_singleton.mp hl) hpart

/-- The lines over the runs that no region crosses are drawn where some region runs on. -/
theorem Layout.drawn_runs (h : Layout g R) (hf : g.Fits) (hsome : ∃ r ∈ g.regions, r.RunsOn row)
    (hruns : IsRuns runs g.cols fun col => ¬g.Crossed row col) :
    g.BoundaryDrawn row style (runs.map fun p => .partially p.1 p.2 style) where
  whole := by
    intro hnone
    obtain ⟨r, hr, hruns⟩ := hsome
    exact absurd hruns (hnone r hr)
  broken _ := ⟨runs, rfl, hruns⟩
  left_out := by
    intro col hcol
    rw [left_out_iff, hruns.columns, h.continued_iff hf, and_iff_right hcol, not_not]
  printed := by
    intro l hl _
    obtain ⟨p, hp, rfl⟩ := List.mem_map.mp hl
    have hlt := hruns.nonempty p hp
    have hstop := hruns.inside p hp
    refine ⟨p.1 + 1, p.2, rfl, ⟨by omega, hlt, hstop⟩, ?_, latex_partially⟩
    intro col
    rw [covers_partially]
    omega

/-- In a reachable grid the boundary below a row is drawn exactly where no region runs on. -/
theorem reachable_boundary_drawn (h : g.Reachable) (row : Nat) (style : LineStyle) :
    g.BoundaryDrawn row style (g.boundaryLines row style) := by
  rcases h.layout.boundaryLines_cases h.fits row style with
    ⟨hnone, hlines⟩ | ⟨hsome, runs, hlines, hruns⟩
  · rw [hlines]
    exact h.layout.drawn_whole h.fits hnone
  · rw [hlines]
    exact h.layout.drawn_runs h.fits hsome hruns

theorem reachable_boundary_drawn_broken :
    let g := ((Grid.blank 3 4).after (.merge 0 0 2 0)).after (.merge 1 2 2 3)
    g.BoundaryDrawn 1 .mid (g.boundaryLines 1 .mid) := by
  refine reachable_boundary_drawn (.edit _ (.edit _ (.blank 3 4 ?_) ?_) ?_) 1 .mid <;> decide

end Drawing

end Grid
end LatexTable
