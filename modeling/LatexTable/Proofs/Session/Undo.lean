import LatexTable.Proofs.Grid.LineEdit
import LatexTable.Proofs.Session.Reachable
/-!
A line that is inserted and deleted again leaves a session as it was: regions that have grown over
the line shrink back, its entry leaves the registry, and the selection stays where it is.
-/
namespace LatexTable
open Result

namespace CellRange

variable {R : Set CellRange} {r : CellRange} {axis : Axis} {pos : Nat}

theorem shrunk_grown : (r.grown axis pos).shrunk axis pos = r := by
  apply ext_axis
  rw [Axis.forall_iff axis]
  simp only [shrunk, grown, first_withLines, last_withLines, first_other_withLines,
    last_other_withLines, Grid.shifted, and_true]
  split_ifs <;> omega

/-- No rectangle ends on the inserted line. -/
theorem hasOtherLine_grown : (r.grown axis pos).HasOtherLine axis pos := by
  simp only [HasOtherLine, grown, last_withLines, Grid.shifted]
  split_ifs <;> omega

theorem kept_delete_insert (hproper : ∀ r ∈ R, r.isSingle = false) :
    kept axis (.delete pos) (kept axis (.insert pos) R) = R := by
  have hback (r : CellRange) : (r.edited axis (.insert pos)).edited axis (.delete pos) = r :=
    shrunk_grown
  ext r
  constructor
  · rintro ⟨_, ⟨⟨s, ⟨hs, -⟩, rfl⟩, -⟩, hr⟩
    exact (hback s).symm.trans hr ▸ hs
  · intro hr
    refine ⟨_, ⟨⟨r, ⟨hr, trivial, ?_⟩, rfl⟩, hasOtherLine_grown, ?_⟩, hback r⟩
    · exact isSingle_grown.trans (hproper r hr)
    · exact (congrArg isSingle (hback r)).trans (hproper r hr)

end CellRange

namespace Grid

variable {g : Grid} {R : Set CellRange} {axis : Axis} {pos line : Nat}

theorem source_shifted : (LineEdit.insert pos).source (shifted pos line) = line := by
  simp only [LineEdit.source, shifted]
  split_ifs <;> omega

theorem not_fresh_shifted : ¬(LineEdit.insert pos).Fresh (shifted pos line) := by
  simp only [LineEdit.Fresh, LineEdit.insert.injEq, shifted]
  split_ifs <;> omega

/-- Deleting an inserted line gives the grid back. -/
theorem Layout.deleted_inserted (h : Layout g R) (hf : g.Fits) (hp : pos ≤ g.lineCount axis) :
    (g.inserted axis pos).deleted axis pos = g := by
  have hi := h.indexed hf
  have ha : (LineEdit.insert pos).Applies (g.lineCount axis) := hp
  have hpos := h.pos axis
  have ha' : (LineEdit.delete pos).Applies ((g.edited axis (.insert pos)).lineCount axis) := by
    simp only [LineEdit.Applies, lineCount_edited, LineEdit.lines]
    omega
  have hins := h.edited hi ha
  have hins' := h.indexed_kept hf ha
  have hback : CellRange.kept axis (.delete pos) (CellRange.kept axis (.insert pos) R) = R :=
    CellRange.kept_delete_insert h.proper
  have hdel := hins.edited hins' ha'
  rw [hback] at hdel
  refine hdel.ext h axis ?_ (fun line offset => ?_) fun line offset => ?_
  · rw [Axis.forall_iff axis]
    simp [LineEdit.lines]
  · have hnew : ((g.edited axis (.insert pos)).cellOn axis (shifted pos line) offset).text =
        (g.cellOn axis line offset).text := by
      rw [text_edited ha, if_neg not_fresh_shifted, source_shifted]
    rw [text_edited ha', if_neg LineEdit.not_fresh_delete]
    exact hnew
  · have hnew : (g.edited axis (.insert pos)).styleOn axis (shifted pos line) offset =
        g.styleOn axis line offset := by
      rw [h.styleOn_edited hi hins' ha fun hfresh => absurd hfresh not_fresh_shifted,
        source_shifted]
    rw [hins.styleOn_edited hins' (hback.symm ▸ hi) ha' fun hfresh =>
      absurd hfresh LineEdit.not_fresh_delete]
    exact hnew

theorem Layout.deleteLine_inserted (h : Layout g R) (hf : g.Fits) (hp : pos ≤ g.lineCount axis) :
    (g.inserted axis pos).deleteLine axis pos = .ok g := by
  have hpos := h.pos axis
  refine (deleteLine_eq_ok_iff ?_).mpr ⟨?_, (h.deleted_inserted hf hp).symm⟩
  · rw [lineCount_other_inserted]
    exact h.pos axis.other
  · rw [lineCount_inserted]
    omega

end Grid

theorem ColumnSpecs.eraseIdx_inserted {specs : ColumnSpecs} {pos : Nat} (h : pos ≤ specs.length) :
    (specs.take pos ++ .default :: specs.drop pos : ColumnSpecs).eraseIdx pos = specs := by
  have hlength : (specs.take pos).length = pos := List.length_take_of_le h
  rw [List.eraseIdx_append_of_length_le hlength.le, hlength, Nat.sub_self, List.eraseIdx_zero,
    List.tail_cons, List.take_append_drop]

namespace Session

variable {s t : Session} {pos : Nat}

namespace Consistent

/-- A selection that lies on the grid is not pulled back. -/
theorem clampSelection_eq (h : Consistent s) : s.clampSelection = s := by
  obtain ⟨⟨hsr, hsc⟩, her, hec⟩ := h.selection
  have hclamp : s.selection.clamp s.grid.rows s.grid.cols = s.selection := by
    unfold Selection.clamp
    rw [min_eq_left (by omega), min_eq_left (by omega), min_eq_left (by omega),
      min_eq_left (by omega)]
  rw [clampSelection, hclamp]

theorem deleteRow_insertRow (h : Consistent s) (hp : pos ≤ s.grid.rows) :
    ∃ u, s.insertRow pos = .ok u ∧ u.deleteRow pos = .ok s := by
  have hins : s.grid.insertRow pos = .ok (s.grid.inserted .row pos) :=
    Grid.insertLine_eq_ok_iff.mpr ⟨hp, rfl⟩
  have hdel : (s.grid.inserted .row pos).deleteRow pos = .ok s.grid :=
    h.grid.layout.deleteLine_inserted h.grid.fits hp
  exact ⟨_, insertRow_eq_ok.mpr ⟨_, hins, rfl⟩,
    deleteRow_eq_ok.mpr ⟨_, hdel, h.clampSelection_eq.symm⟩⟩

theorem deleteCol_insertCol (h : Consistent s) (hp : pos ≤ s.grid.cols) :
    ∃ u, s.insertCol pos = .ok u ∧ u.deleteCol pos = .ok s := by
  have hins : s.grid.insertCol pos = .ok (s.grid.inserted .column pos) :=
    Grid.insertLine_eq_ok_iff.mpr ⟨hp, rfl⟩
  have hdel : (s.grid.inserted .column pos).deleteCol pos = .ok s.grid :=
    h.grid.layout.deleteLine_inserted h.grid.fits hp
  have hcolumns : pos ≤ s.columns.length := h.columns ▸ hp
  let specs : ColumnSpecs := s.columns.take pos ++ .default :: s.columns.drop pos
  have hins' : s.columns.insertDefault pos = .ok specs := ColumnSpecs.insertDefault_of_le hcolumns
  have hdel' : specs.remove pos = .ok s.columns := by
    rw [ColumnSpecs.remove_of_lt, ColumnSpecs.eraseIdx_inserted hcolumns]
    exact Nat.lt_succ_of_le hcolumns |>.trans_eq (ColumnSpecs.length_inserted hcolumns).symm
  exact ⟨_, insertCol_eq_ok.mpr ⟨_, hins, specs, hins', rfl⟩,
    deleteCol_eq_ok.mpr ⟨_, hdel, _, hdel', h.clampSelection_eq.symm⟩⟩

end Consistent

/-- After every run a line can be inserted at any place, and deleting it there gives the session
back. -/
theorem inserted_line_undone (hs : Start s) (hrun : Run s t) :
    (∀ pos ≤ t.grid.rows, ∃ u, t.insertRow pos = .ok u ∧ u.deleteRow pos = .ok t) ∧
      ∀ pos ≤ t.grid.cols, ∃ u, t.insertCol pos = .ok u ∧ u.deleteCol pos = .ok t :=
  have h := hs.consistent.run hrun
  ⟨fun _ hp => h.deleteRow_insertRow hp, fun _ hp => h.deleteCol_insertCol hp⟩

theorem inserted_line_undone_crossing :
    let s := blank 3 3
    let t := ((s.after (.beginSelection 0 0)).after (.extendSelection 1 1)).after .mergeSelection
    (∀ pos ≤ t.grid.rows, ∃ u, t.insertRow pos = .ok u ∧ u.deleteRow pos = .ok t) ∧
      ∀ pos ≤ t.grid.cols, ∃ u, t.insertCol pos = .ok u ∧ u.deleteCol pos = .ok t := by
  refine inserted_line_undone (.blank 3 3 ?_) (.edit _ (.edit _ (.edit _ .nil ?_) ?_) ?_) <;> decide

end Session
end LatexTable
