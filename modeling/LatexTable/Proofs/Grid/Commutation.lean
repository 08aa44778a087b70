import LatexTable.Proofs.Grid.LineEdit
import LatexTable.Proofs.Grid.Reachable
/-!
An edit of the rows and an edit of the columns commute. In either order the same regions are kept,
and a place has the text and the style of its source, or neither if one of its lines is new.
-/
namespace LatexTable
open Result

namespace CellRange

variable {R : Set CellRange} {axis : Axis} {e e' : LineEdit} {line offset : Nat}

theorem kept_kept_subset :
    kept axis.other e' (kept axis e R) ⊆ kept axis e (kept axis.other e' R) := by
  rintro _ ⟨_, ⟨⟨r, ⟨hr, hk, -⟩, rfl⟩, hk', hs⟩, rfl⟩
  have hke : (r.edited axis.other e').Keeps axis e := keeps_other_edited.mpr hk
  dsimp only at hs ⊢
  rw [edited_comm] at hs ⊢
  refine ⟨_, ⟨⟨r, ⟨hr, keeps_edited_other.mp hk', ?_⟩, rfl⟩, hke, hs⟩, rfl⟩
  by_contra hsingle
  rw [isSingle_edited ((Bool.not_eq_false _).mp hsingle) hke] at hs
  contradiction

theorem kept_comm : kept axis.other e' (kept axis e R) = kept axis e (kept axis.other e' R) := by
  apply kept_kept_subset.antisymm
  have hback : kept axis.other.other e (kept axis.other e' R) ⊆
      kept axis.other e' (kept axis.other.other e R) := kept_kept_subset
  rwa [Axis.other_other] at hback

/-- A place is in what two edits, one along each axis, keep of some rectangle. -/
def KeptBy (R : Set CellRange) (axis : Axis) (e e' : LineEdit) (line offset : Nat) : Prop :=
  ∃ r ∈ R, (r.Keeps axis e ∧ r.Keeps axis.other e') ∧
    ((r.edited axis e).edited axis.other e').ContainsOn axis line offset

theorem keptBy_comm : KeptBy R axis.other e' e offset line ↔ KeptBy R axis e e' line offset := by
  refine exists_congr fun r => and_congr_right fun _ => ?_
  rw [Axis.other_other, and_comm (a := r.Keeps axis.other e'), containsOn_other, edited_comm]

end CellRange

namespace Grid

variable {g g' : Grid} {R : Set CellRange} {axis : Axis} {e e' : LineEdit}
  {pos line offset : Nat}

/-- An edit along one axis leaves the lines along the other one to edit. -/
theorem applies_edited (ha' : e'.Applies (g.lineCount axis.other)) :
    e'.Applies ((g.edited axis e).lineCount axis.other) := by
  rwa [lineCount_other_edited]

theorem text_edited_edited (ha : e.Applies (g.lineCount axis))
    (ha' : e'.Applies (g.lineCount axis.other)) :
    (((g.edited axis e).edited axis.other e').cellOn axis line offset).text =
      if e.Fresh line ∨ e'.Fresh offset then ""
      else (g.cellOn axis (e.source line) (e'.source offset)).text := by
  rw [← cellOn_other, text_edited (applies_edited ha'), cellOn_other, text_edited ha]
  split_ifs <;> simp_all

namespace Layout

theorem edited_edited (h : Layout g R) (hf : g.Fits) (ha : e.Applies (g.lineCount axis))
    (ha' : e'.Applies (g.lineCount axis.other)) :
    Layout ((g.edited axis e).edited axis.other e')
      (CellRange.kept axis.other e' (CellRange.kept axis e R)) :=
  (h.edited (h.indexed hf) ha).edited (h.indexed_kept hf ha) (applies_edited ha')

/-- Each axis gets at most one line more, so the regions still end at indices. -/
theorem indexed_kept_kept (h : Layout g R) (hf : g.Fits) (ha : e.Applies (g.lineCount axis))
    (ha' : e'.Applies (g.lineCount axis.other)) :
    Indexed (CellRange.kept axis.other e' (CellRange.kept axis e R)) := by
  apply (h.edited_edited hf ha ha').indexed_of_le
  have hmax := h.lineCount_le hf
  have hlines : e.lines (g.lineCount axis) ≤ g.lineCount axis + 1 := LineEdit.lines_le
  have hlines' : e'.lines (g.lineCount axis.other) ≤ g.lineCount axis.other + 1 :=
    LineEdit.lines_le
  rw [Axis.forall_iff axis] at hmax
  rw [Axis.forall_iff axis.other, lineCount_edited, lineCount_other_edited, lineCount_other_edited,
    Axis.other_other, lineCount_edited]
  omega

/-- After both edits a place has the style of its source, or it is new and in no region. -/
theorem styleOn_edited_edited (h : Layout g R) (hf : g.Fits) (ha : e.Applies (g.lineCount axis))
    (ha' : e'.Applies (g.lineCount axis.other))
    (hkept : e.Fresh line ∨ e'.Fresh offset → CellRange.KeptBy R axis e e' line offset) :
    ((g.edited axis e).edited axis.other e').styleOn axis line offset =
      g.styleOn axis (e.source line) (e'.source offset) := by
  have hi := h.indexed hf
  have hi' := h.indexed_kept hf ha
  rw [← styleOn_other,
    (h.edited hi ha).styleOn_edited hi' (h.indexed_kept_kept hf ha ha') (applies_edited ha'),
    styleOn_other, h.styleOn_edited hi hi' ha]
  · intro hfresh
    obtain ⟨r, hr, ⟨hk, hk'⟩, hc⟩ := hkept (.inl hfresh)
    rw [← CellRange.containsOn_other] at hc
    have hsource := CellRange.containsOn_source (CellRange.keeps_edited_other.mpr hk') hc
    exact ⟨r, hr, hk, CellRange.containsOn_other.mp hsource⟩
  · intro hfresh
    obtain ⟨r, hr, ⟨hk, hk'⟩, hc⟩ := hkept (.inr hfresh)
    rw [← CellRange.containsOn_other] at hc
    have hsingle := CellRange.isSingle_eq_false_of_fresh hfresh hc
    exact ⟨_, ⟨r, ⟨hr, hk, hsingle⟩, rfl⟩, CellRange.keeps_edited_other.mpr hk', hc⟩

theorem styleOn_edited_edited_fresh (h : Layout g R) (hf : g.Fits)
    (ha : e.Applies (g.lineCount axis)) (ha' : e'.Applies (g.lineCount axis.other))
    (hfresh : e.Fresh line ∨ e'.Fresh offset) (hn : ¬CellRange.KeptBy R axis e e' line offset) :
    ((g.edited axis e).edited axis.other e').styleOn axis line offset = .unset := by
  have hi := h.indexed hf
  have hi' := h.indexed_kept hf ha
  rw [← styleOn_other]
  by_cases hf' : e'.Fresh offset
  · apply (h.edited hi ha).styleOn_edited_fresh hi' (applies_edited ha') hf'
    rintro ⟨_, ⟨r, ⟨hr, hk, -⟩, rfl⟩, hk', hc⟩
    exact hn ⟨r, hr, ⟨hk, CellRange.keeps_edited_other.mp hk'⟩, CellRange.containsOn_other.mp hc⟩
  · -- the line is new after the first edit, and the second one does not change that
    rw [(h.edited hi ha).styleOn_edited hi' (h.indexed_kept_kept hf ha ha') (applies_edited ha')
      fun hfresh' => absurd hfresh' hf', styleOn_other]
    apply h.styleOn_edited_fresh hi ha (hfresh.resolve_right hf')
    rintro ⟨r, hr, hk, hc⟩
    rw [← CellRange.containsOn_other] at hc
    obtain ⟨hk', hc⟩ := CellRange.containsOn_edited hf' hc
    exact hn ⟨r, hr, ⟨hk, CellRange.keeps_edited_other.mp hk'⟩, CellRange.containsOn_other.mp hc⟩

/-- The styles after both edits do not depend on their order. -/
theorem styleOn_edited_comm (h : Layout g R) (hf : g.Fits) (ha : e.Applies (g.lineCount axis))
    (ha' : e'.Applies (g.lineCount axis.other)) :
    ((g.edited axis e).edited axis.other e').styleOn axis line offset =
      ((g.edited axis.other e').edited axis e).styleOn axis line offset := by
  have hswap : ((g.edited axis.other e').edited axis e).styleOn axis line offset =
      ((g.edited axis.other e').edited axis.other.other e).styleOn axis.other offset line := by
    rw [styleOn_other, Axis.other_other]
  have hb : e.Applies (g.lineCount axis.other.other) := by rwa [Axis.other_other]
  rw [hswap]
  by_cases hkept : e.Fresh line ∨ e'.Fresh offset → CellRange.KeptBy R axis e e' line offset
  · rw [h.styleOn_edited_edited hf ha ha' hkept, h.styleOn_edited_edited hf ha' hb, styleOn_other]
    exact fun hfresh => CellRange.keptBy_comm.mpr (hkept hfresh.symm)
  · push Not at hkept
    obtain ⟨hfresh, hn⟩ := hkept
    rw [h.styleOn_edited_edited_fresh hf ha ha' hfresh hn,
      h.styleOn_edited_edited_fresh hf ha' hb hfresh.symm (CellRange.keptBy_comm.not.mpr hn)]

theorem text_edited_comm (ha : e.Applies (g.lineCount axis))
    (ha' : e'.Applies (g.lineCount axis.other)) :
    (((g.edited axis e).edited axis.other e').cellOn axis line offset).text =
      (((g.edited axis.other e').edited axis e).cellOn axis line offset).text := by
  have hswap : ((g.edited axis.other e').edited axis e).cellOn axis line offset =
      ((g.edited axis.other e').edited axis.other.other e).cellOn axis.other offset line := by
    rw [cellOn_other, Axis.other_other]
  have hb : e.Applies (g.lineCount axis.other.other) := by rwa [Axis.other_other]
  rw [hswap, text_edited_edited ha ha', text_edited_edited ha' hb, cellOn_other]
  exact if_congr or_comm rfl rfl

/-- An edit of the rows and an edit of the columns commute. -/
theorem edited_comm (h : Layout g R) (hf : g.Fits) (ha : e.Applies g.rows)
    (ha' : e'.Applies g.cols) :
    (g.edited .row e).edited .column e' = (g.edited .column e').edited .row e := by
  have hone : Layout ((g.edited .row e).edited .column e')
      (CellRange.kept .column e' (CellRange.kept .row e R)) :=
    h.edited_edited hf ha ha'
  have hother : Layout ((g.edited .column e').edited .row e)
      (CellRange.kept .column e' (CellRange.kept .row e R)) :=
    CellRange.kept_comm ▸ h.edited_edited hf ha' ha
  refine hone.ext hother .row ?_ (fun _ _ => text_edited_comm ha ha') fun _ _ =>
    h.styleOn_edited_comm hf ha ha'
  intro axis
  cases axis <;> cases e <;> cases e' <;> rfl

end Layout

/-- The call that makes an edit of the rows. -/
def editRows (g : Grid) : LineEdit → TableResult Grid
  | .insert pos => g.insertRow pos
  | .delete pos => g.deleteRow pos

/-- The call that makes an edit of the columns. -/
def editCols (g : Grid) : LineEdit → TableResult Grid
  | .insert pos => g.insertCol pos
  | .delete pos => g.deleteCol pos

theorem deleteLine_eq_ok_iff_applies (hpos : 0 < g.lineCount axis.other) :
    g.deleteLine axis pos = .ok g' ↔
      (LineEdit.delete pos).Applies (g.lineCount axis) ∧ g' = g.edited axis (.delete pos) := by
  refine (deleteLine_eq_ok_iff hpos).trans (and_congr_left fun _ => ?_)
  simp only [LineEdit.Applies]
  omega

theorem editRows_eq_ok_iff (hpos : 0 < g.cols) :
    g.editRows e = .ok g' ↔ e.Applies g.rows ∧ g' = g.edited .row e := by
  cases e with
  | insert pos => exact insertLine_eq_ok_iff
  | delete pos => exact deleteLine_eq_ok_iff_applies hpos

theorem editCols_eq_ok_iff (hpos : 0 < g.rows) :
    g.editCols e = .ok g' ↔ e.Applies g.cols ∧ g' = g.edited .column e := by
  cases e with
  | insert pos => exact insertLine_eq_ok_iff
  | delete pos => exact deleteLine_eq_ok_iff_applies hpos

/-- On every reachable grid the calls of an edit of the rows and of one of the columns succeed in
either order, with one result. -/
theorem reachable_edits_commute (h : Reachable g) (ha : e.Applies g.rows)
    (ha' : e'.Applies g.cols) :
    ∃ g', (g.editRows e >>= fun g => g.editCols e') = .ok g' ∧
      (g.editCols e' >>= fun g => g.editRows e) = .ok g' := by
  have hlayout := h.layout
  have hrows : Layout (g.edited .row e) (CellRange.kept .row e {r | r ∈ g.regions}) :=
    hlayout.edited (hlayout.indexed h.fits) ha
  have hcols : Layout (g.edited .column e') (CellRange.kept .column e' {r | r ∈ g.regions}) :=
    hlayout.edited (hlayout.indexed h.fits) ha'
  refine ⟨(g.edited .row e).edited .column e', ?_, ?_⟩
  · simp only [bind_eq_ok, editRows_eq_ok_iff (hlayout.pos .column)]
    exact ⟨_, ⟨ha, rfl⟩, (editCols_eq_ok_iff (hrows.pos .row)).mpr ⟨by cases e <;> exact ha', rfl⟩⟩
  · simp only [bind_eq_ok, editCols_eq_ok_iff (hlayout.pos .row)]
    refine ⟨_, ⟨ha', rfl⟩, (editRows_eq_ok_iff (hcols.pos .column)).mpr ⟨?_, ?_⟩⟩
    · cases e' <;> exact ha
    · exact hlayout.edited_comm h.fits ha ha'

theorem reachable_edits_commute_heirs :
    let g := ((Grid.blank 3 3).after (.merge 0 0 1 1)).after (.setText 0 0 "head")
    ∃ g', (g.editRows (.delete 0) >>= fun g => g.editCols (.delete 0)) = .ok g' ∧
      (g.editCols (.delete 0) >>= fun g => g.editRows (.delete 0)) = .ok g' := by
  refine reachable_edits_commute (.edit _ (.edit _ (.blank 3 3 ?_) ?_) ?_) ?_ ?_ <;> decide

end Grid
end LatexTable
