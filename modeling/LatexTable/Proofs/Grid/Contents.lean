import LatexTable.Proofs.Grid.LineEdit
import LatexTable.Proofs.Grid.Reachable
import Mathlib.Data.List.Sort
/-!
The texts of a grid in reading order, blank ones left out. A deleted line takes its own texts away
and no others, so the question whether it has content tells exactly whether a text gets lost.
-/
namespace LatexTable.Grid

variable {g : Grid} {axis : Axis} {pos row col : Nat}

/-- The texts of the cells that have one, row by row. -/
def contents (g : Grid) : List String :=
  (g.rowList.flatten.map Cell.text).filter fun text => (Text.nonBlank? text).isSome

/-- Where a place stood before the line `pos` was deleted. -/
def movedFrom (axis : Axis) (pos : Nat) (p : Nat × Nat) : Nat × Nat :=
  match axis with
  | .row => (shifted pos p.1, p.2)
  | .column => (p.1, shifted pos p.2)

section Lists

variable {α β : Type} {l : List α} {f : α → β} {kept : α → Bool} {p : β → Bool} {n : Nat}

/-- Leaving elements out changes nothing of a selection exactly when none of them is selected. -/
theorem filter_map_filter_eq_iff :
    ((l.filter kept).map f).filter p = (l.map f).filter p ↔
      ∀ a ∈ l, p (f a) = true → kept a = true := by
  rw [List.filter_map, List.filter_map]
  constructor
  · intro heq a ha hp
    have hsub : ((l.filter kept).filter (p ∘ f)).Sublist (l.filter (p ∘ f)) :=
      List.filter_sublist.filter _
    have hlength := congrArg List.length heq
    rw [List.length_map, List.length_map] at hlength
    have hmem : a ∈ (l.filter kept).filter (p ∘ f) := by
      rw [hsub.eq_of_length hlength]
      exact List.mem_filter.mpr ⟨ha, hp⟩
    exact (List.mem_filter.mp (List.mem_filter.mp hmem).1).2
  · intro hkept
    rw [List.filter_filter]
    congr 1
    apply List.filter_congr
    intro a ha
    cases hp : p (f a) with
    | true => simp [hp, hkept a ha hp]
    | false => simp [hp]

theorem flatMap_filter {f : α → List β} :
    (l.filter kept).flatMap f = l.flatMap fun a => if kept a then f a else [] := by
  induction l with
  | nil => rfl
  | cons a l ih => cases ha : kept a <;> simp [ha, ih]

/-- The lines that are left are all but the deleted one, in their order. -/
theorem map_range_shifted (hp : pos < n) :
    (List.range (n - 1)).map (shifted pos) = (List.range n).filter (· ≠ pos) := by
  have hmono {i j : Nat} (hij : i < j) : shifted pos i < shifted pos j := by
    unfold shifted
    split_ifs <;> omega
  have hleft : ((List.range (n - 1)).map (shifted pos)).Pairwise (· < ·) :=
    List.pairwise_lt_range.map _ fun _ _ => hmono
  have hright : ((List.range n).filter (· ≠ pos)).Pairwise (· < ·) :=
    List.pairwise_lt_range.filter _
  refine hleft.eq_of_mem_iff hright fun i => ?_
  simp only [List.mem_map, List.mem_range, List.mem_filter, decide_eq_true_eq]
  constructor
  · rintro ⟨j, hj, rfl⟩
    unfold shifted
    split_ifs <;> omega
  · rintro ⟨hi, hne⟩
    refine ⟨if i < pos then i else i - 1, ?_⟩
    unfold shifted
    split_ifs <;> omega

end Lists

/-- The places that are left are all but those of the deleted line, in reading order. -/
theorem places_deleted (hp : pos < g.lineCount axis) :
    (g.deleted axis pos).places.map (movedFrom axis pos) =
      g.places.filter fun (row, col) => axis.line row col ≠ pos := by
  unfold places
  rw [List.map_flatMap, List.filter_flatMap]
  cases axis with
  | row =>
    -- a whole row is taken out
    have hrows : (List.range (g.rows - 1)).map (shifted pos) =
        (List.range g.rows).filter (· ≠ pos) := map_range_shifted hp
    have hrow (row : Nat) : ((List.range g.cols).map fun col => (row, col)).filter
        (fun (row, col) => Axis.row.line row col ≠ pos) =
          if decide (row ≠ pos) then (List.range g.cols).map fun col => (row, col) else [] := by
      by_cases hne : row = pos <;> simp [Axis.line, hne]
    simp only [hrow]
    rw [← flatMap_filter, ← hrows, List.flatMap_map]
    exact List.flatMap_congr fun row _ => List.map_map
  | column =>
    -- one place is taken out of every row
    have hcols : (List.range (g.cols - 1)).map (shifted pos) =
        (List.range g.cols).filter (· ≠ pos) := map_range_shifted hp
    refine List.flatMap_congr fun row _ => ?_
    calc ((List.range (g.cols - 1)).map fun col => (row, col)).map (movedFrom .column pos)
        = ((List.range (g.cols - 1)).map (shifted pos)).map fun col => (row, col) := by
          rw [List.map_map, List.map_map]
          rfl
      _ = ((List.range g.cols).filter (· ≠ pos)).map fun col => (row, col) := by rw [hcols]
      _ = _ := by
          rw [List.filter_map]
          rfl

/-- A deletion takes the texts of its line out and keeps the others in their order. -/
theorem contents_deleted (hp : pos < g.lineCount axis) (hn : 2 ≤ g.lineCount axis) :
    (g.deleted axis pos).contents =
      ((g.places.filter fun (row, col) => axis.line row col ≠ pos).map
        fun (row, col) => (g.cellAt row col).text).filter
          fun text => (Text.nonBlank? text).isSome := by
  have hedited (line offset : Nat) : ((g.deleted axis pos).cellOn axis line offset).text =
      (g.cellOn axis (shifted pos line) offset).text := text_edited (e := .delete pos) ⟨hp, hn⟩
  have htext (row col : Nat) : ((g.deleted axis pos).cellAt row col).text =
      (g.cellAt (movedFrom axis pos (row, col)).1 (movedFrom axis pos (row, col)).2).text := by
    cases axis with
    | row => exact hedited row col
    | column => exact hedited col row
  rw [← places_deleted hp, contents, flatten_rowList, List.map_map, List.map_map]
  congr 2
  exact funext fun (row, col) => htext row col

/-- The question of a line looks at its places only. -/
theorem lineHasContent_eq_false_iff (hpos : 0 < g.lineCount axis.other)
    (hp : pos < g.lineCount axis) : g.lineHasContent axis pos = .ok false ↔
      ∀ p ∈ g.places, (g.cellAt p.1 p.2).hasContent = true → axis.line p.1 p.2 ≠ pos := by
  simp only [lineHasContent, Result.check_bind_eq_ok, checkLine_eq_ok_iff hpos, hp, true_and,
    Result.pure_eq_ok]
  rw [eq_comm, List.any_eq_false]
  simp only [List.mem_range]
  constructor
  · rintro hnone ⟨row, col⟩ hin hcontent rfl
    obtain ⟨hr, hc⟩ := mem_places.mp hin
    cases axis with
    | row => exact hnone col hc hcontent
    | column => exact hnone row hr hcontent
  · intro hother offset ho hcontent
    cases axis with
    | row => exact hother (pos, offset) (mem_places.mpr ⟨hp, ho⟩) hcontent rfl
    | column => exact hother (offset, pos) (mem_places.mpr ⟨ho, hp⟩) hcontent rfl

theorem contents_deleted_eq_iff (hpos : 0 < g.lineCount axis.other) (hp : pos < g.lineCount axis)
    (hn : 2 ≤ g.lineCount axis) :
    (g.deleted axis pos).contents = g.contents ↔ g.lineHasContent axis pos = .ok false := by
  rw [contents_deleted hp hn, contents, flatten_rowList, List.map_map,
    lineHasContent_eq_false_iff hpos hp]
  refine filter_map_filter_eq_iff.trans ?_
  simp [Cell.hasContent]

/-- A row or column of a reachable grid can be deleted without loss of a text exactly when it is
said to have no content. -/
theorem reachable_deletion_lossless (h : Reachable g) :
    (2 ≤ g.rows → ∀ row < g.rows, ∃ g', g.deleteRow row = .ok g' ∧
      (g.rowHasContent row = .ok false ↔ g'.contents = g.contents)) ∧
    (2 ≤ g.cols → ∀ col < g.cols, ∃ g', g.deleteCol col = .ok g' ∧
      (g.colHasContent col = .ok false ↔ g'.contents = g.contents)) := by
  have hpos := h.layout.pos
  have hdeleted (axis : Axis) (hn : 2 ≤ g.lineCount axis) (pos : Nat)
      (hp : pos < g.lineCount axis) : ∃ g', g.deleteLine axis pos = .ok g' ∧
        (g.lineHasContent axis pos = .ok false ↔ g'.contents = g.contents) := by
    have hne : g.lineCount axis ≠ 1 := by omega
    exact ⟨_, (deleteLine_eq_ok_iff (hpos axis.other)).mpr ⟨⟨hp, hne⟩, rfl⟩,
      (contents_deleted_eq_iff (hpos axis.other) hp hn).symm⟩
  exact ⟨hdeleted .row, hdeleted .column⟩

theorem reachable_deletion_lossless_heir :
    let g := (((Grid.blank 3 2).after (.setText 0 0 "a")).after (.setText 2 1 "b")).after
      (.merge 0 0 1 1)
    (∃ g', g.deleteRow 0 = .ok g' ∧ g'.contents ≠ g.contents) ∧
      (∃ g', g.deleteRow 1 = .ok g' ∧ g'.contents = g.contents) ∧
        ∃ g', g.deleteCol 1 = .ok g' ∧ g'.contents ≠ g.contents := by
  intro g
  have hlossless := reachable_deletion_lossless (g := g) <|
    .edit _ (.edit _ (.edit _ (.blank 3 2 (by decide)) (by decide)) (by decide)) (by decide)
  obtain ⟨first, hfirst, hlost⟩ := hlossless.1 (by decide) 0 (by decide)
  obtain ⟨second, hsecond, hkept⟩ := hlossless.1 (by decide) 1 (by decide)
  obtain ⟨third, hthird, hlost'⟩ := hlossless.2 (by decide) 1 (by decide)
  exact ⟨⟨first, hfirst, fun heq => absurd (hlost.mpr heq) (by decide)⟩,
    ⟨second, hsecond, hkept.mp (by decide)⟩,
    ⟨third, hthird, fun heq => absurd (hlost'.mpr heq) (by decide)⟩⟩

end LatexTable.Grid
