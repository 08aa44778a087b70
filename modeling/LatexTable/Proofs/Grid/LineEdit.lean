import LatexTable.Proofs.Grid.Deletion
import LatexTable.Proofs.Grid.Insertion
import LatexTable.Proofs.Grid.Owner
/-!
Inserting and deleting a line in one form. Every line afterwards is new or has a source, from which
texts and styles come; a new line has a style only inside a region that runs through it.
-/
namespace LatexTable

/-- A line is inserted before a position, or the line there is deleted. -/
inductive LineEdit where
  | insert (pos : Nat)
  | delete (pos : Nat)
  deriving DecidableEq

namespace LineEdit

/-- The edit can be made on that many lines. -/
def Applies (e : LineEdit) (lines : Nat) : Prop :=
  match e with
  | insert pos => pos ≤ lines
  | delete pos => pos < lines ∧ 2 ≤ lines

/-- The line is new after the edit. -/
def Fresh (e : LineEdit) (line : Nat) : Prop := e = .insert line

/-- The line that comes to stand at an index; for a new line, the one that it moves on. -/
def source (e : LineEdit) (line : Nat) : Nat :=
  match e with
  | insert pos => if line ≤ pos then line else line - 1
  | delete pos => Grid.shifted pos line

/-- The number of lines after the edit. -/
def lines (e : LineEdit) (n : Nat) : Nat :=
  match e with
  | insert _ => n + 1
  | delete _ => n - 1

variable {e : LineEdit} {n line : Nat}

instance : Decidable (e.Applies n) := by
  unfold Applies
  cases e <;> infer_instance

instance : Decidable (e.Fresh line) := inferInstanceAs (Decidable (e = .insert line))

theorem source_lt_iff (ha : e.Applies n) (hf : ¬e.Fresh line) :
    e.source line < n ↔ line < e.lines n := by
  cases e with
  | insert pos =>
    simp only [Fresh, insert.injEq] at hf
    simp only [Applies] at ha
    simp only [source, lines]
    split_ifs <;> omega
  | delete pos =>
    simp only [Applies] at ha
    simp only [source, lines, Grid.shifted]
    split_ifs <;> omega

theorem not_fresh_delete {pos : Nat} : ¬(delete pos).Fresh line := by simp [Fresh]

theorem lines_le : e.lines n ≤ n + 1 := by
  cases e <;> simp only [lines] <;> omega

end LineEdit

namespace Cell

variable {c : Cell} {axis : Axis} {n : Nat}

@[simp] theorem text_withSpan : (c.withSpan axis n).text = c.text := by cases axis <;> rfl

@[simp] theorem style_withSpan : (c.withSpan axis n).style = c.style := by cases axis <;> rfl

end Cell

namespace CellRange

variable {r : CellRange} {axis : Axis} {e e' : LineEdit} {line offset : Nat}

/-- The rectangle after an edit of the lines, if it keeps one. -/
def edited (r : CellRange) (axis : Axis) (e : LineEdit) : CellRange :=
  match e with
  | .insert pos => r.grown axis pos
  | .delete pos => r.shrunk axis pos

/-- A line of the rectangle is left after an edit. -/
def Keeps (r : CellRange) (axis : Axis) (e : LineEdit) : Prop :=
  match e with
  | .insert _ => True
  | .delete pos => r.HasOtherLine axis pos

theorem containsOn_other : r.ContainsOn axis.other offset line ↔ r.ContainsOn axis line offset := by
  rw [ContainsOn, ContainsOn, Axis.other_other]
  exact And.comm

/-- Edits of the rows and of the columns do not see each other. -/
theorem edited_comm :
    (r.edited axis e).edited axis.other e' = (r.edited axis.other e').edited axis e := by
  cases axis <;> cases e <;> cases e' <;> rfl

theorem keeps_edited_other : (r.edited axis e).Keeps axis.other e' ↔ r.Keeps axis.other e' := by
  cases axis <;> cases e <;> cases e' <;> rfl

theorem keeps_other_edited : (r.edited axis.other e').Keeps axis e ↔ r.Keeps axis e := by
  cases axis <;> cases e <;> cases e' <;> rfl

theorem Ordered.edited (hr : r.Ordered) (hk : r.Keeps axis e) : (r.edited axis e).Ordered := by
  cases e with
  | insert pos => exact hr.grown
  | delete pos => exact hr.shrunk hk

theorem isSingle_edited (hs : r.isSingle = true) (hk : r.Keeps axis e) :
    (r.edited axis e).isSingle = true := by
  cases e with
  | insert pos => exact isSingle_grown.trans hs
  | delete pos =>
    rw [isSingle_iff, Axis.forall_iff axis] at hs ⊢
    obtain ⟨ha, ho⟩ := hs
    simp only [Keeps, HasOtherLine] at hk
    simp only [CellRange.edited, shrunk, first_withLines, last_withLines, first_other_withLines,
      last_other_withLines]
    split_ifs <;> omega

/-- Every place of the rectangle comes from it. -/
theorem containsOn_source (hk : r.Keeps axis e)
    (hc : (r.edited axis e).ContainsOn axis line offset) :
    r.ContainsOn axis (e.source line) offset := by
  cases e with
  | insert pos => exact containsOn_of_grown hc
  | delete pos => exact (containsOn_shrunk hk).mp hc

/-- What comes from the rectangle stays in it. -/
theorem containsOn_edited (hf : ¬e.Fresh line) (hc : r.ContainsOn axis (e.source line) offset) :
    r.Keeps axis e ∧ (r.edited axis e).ContainsOn axis line offset := by
  cases e with
  | insert pos =>
    simp only [LineEdit.Fresh, LineEdit.insert.injEq] at hf
    refine ⟨trivial, containsOn_grown.mpr ?_⟩
    rcases Nat.lt_or_gt_of_ne hf with hl | hl
    · simp only [LineEdit.source, if_neg hl.not_ge] at hc
      exact .inr (.inr ⟨hl, hc⟩)
    · simp only [LineEdit.source, if_pos hl.le] at hc
      exact .inl ⟨hl, hc⟩
  | delete pos =>
    have hk : r.HasOtherLine axis pos := hasOtherLine_of_containsOn hc
    exact ⟨hk, (containsOn_shrunk hk).mpr hc⟩

/-- Only a rectangle of several lines takes a new one in. -/
theorem isSingle_eq_false_of_fresh (hf : e.Fresh line)
    (hc : (r.edited axis e).ContainsOn axis line offset) : r.isSingle = false := by
  obtain rfl : e = .insert line := hf
  rcases containsOn_grown.mp hc with ⟨hl, -⟩ | ⟨-, hrun, -⟩ | ⟨hl, -⟩
  · exact absurd hl (lt_irrefl _)
  · rw [← Bool.not_eq_true, isSingle_iff]
    intro hs
    have ha := hs axis
    omega
  · exact absurd hl (lt_irrefl _)

/-- The regions after an edit of the lines: single cells are no regions any more. -/
def kept (axis : Axis) (e : LineEdit) (R : Set CellRange) : Set CellRange :=
  (edited · axis e) '' {r ∈ R | r.Keeps axis e ∧ (r.edited axis e).isSingle = false}

/-- A place is in what an edit of the lines keeps of some rectangle. -/
def KeptOn (R : Set CellRange) (axis : Axis) (e : LineEdit) (line offset : Nat) : Prop :=
  ∃ r ∈ R, r.Keeps axis e ∧ (r.edited axis e).ContainsOn axis line offset

end CellRange

namespace Grid

variable {g : Grid} {R : Set CellRange} {r : CellRange} {axis : Axis} {e : LineEdit}
  {pos line offset : Nat}

section Cells

variable {crossing met : List CellRange}

theorem text_insertedCell :
    (g.insertedCell axis pos crossing line offset).text =
      if (LineEdit.insert pos).Fresh line then ""
      else (g.cellOn axis ((LineEdit.insert pos).source line) offset).text := by
  simp only [insertedCell, LineEdit.Fresh, LineEdit.source, LineEdit.insert.injEq]
  split_ifs <;> first | omega | rfl | simp

theorem style_insertedCell :
    (g.insertedCell axis pos crossing line offset).style =
      if (LineEdit.insert pos).Fresh line then .unset
      else (g.cellOn axis ((LineEdit.insert pos).source line) offset).style := by
  simp only [insertedCell, LineEdit.Fresh, LineEdit.source, LineEdit.insert.injEq]
  split_ifs <;> first | omega | rfl | simp

/-- A cell keeps its text when it takes a region over. -/
theorem text_settledCell :
    (g.settledCell axis pos met line offset).text = (g.cellOn axis line offset).text := by
  simp only [settledCell, heir]
  split
  · simp
  · split_ifs <;> simp

end Cells

/-- The grid after an edit of its lines. -/
def edited (g : Grid) (axis : Axis) (e : LineEdit) : Grid :=
  match e with
  | .insert pos => g.inserted axis pos
  | .delete pos => g.deleted axis pos

@[simp] theorem lineCount_edited :
    (g.edited axis e).lineCount axis = e.lines (g.lineCount axis) := by
  cases e with
  | insert pos => exact lineCount_inserted
  | delete pos => exact lineCount_deleted

@[simp] theorem lineCount_other_edited :
    (g.edited axis e).lineCount axis.other = g.lineCount axis.other := by
  cases e with
  | insert pos => exact lineCount_other_inserted
  | delete pos => exact lineCount_other_deleted

/-- Outside the grid there are blank cells before and after. -/
theorem cellOn_edited_of_not_lt (ha : e.Applies (g.lineCount axis))
    (hout : ¬(line < e.lines (g.lineCount axis) ∧ offset < g.lineCount axis.other)) :
    (g.edited axis e).cellOn axis line offset =
      if e.Fresh line then .empty else g.cellOn axis (e.source line) offset := by
  rw [cellOn_of_not_lt (by simpa using hout)]
  split_ifs with hf
  · rfl
  · rw [cellOn_of_not_lt (by rwa [LineEdit.source_lt_iff ha hf])]

/-- A text comes with its line, and new lines have none. -/
theorem text_edited (ha : e.Applies (g.lineCount axis)) :
    ((g.edited axis e).cellOn axis line offset).text =
      if e.Fresh line then "" else (g.cellOn axis (e.source line) offset).text := by
  by_cases hin : line < e.lines (g.lineCount axis) ∧ offset < g.lineCount axis.other
  · cases e with
    | insert pos =>
      exact (congrArg Cell.text (cellOn_inserted hin.1 hin.2)).trans text_insertedCell
    | delete pos =>
      exact (congrArg Cell.text (cellOn_deleted hin.1 hin.2)).trans text_settledCell
  · rw [cellOn_edited_of_not_lt ha hin, apply_ite Cell.text]
    rfl

namespace Layout

theorem style_heir (h : Layout g R) (hi : Indexed R) (hr : r ∈ R)
    (hs : r.startsOn axis pos offset = true) (hl : pos < r.last axis) :
    (g.settledCell axis pos (g.meeting axis pos) (pos + 1) offset).style =
      (g.cellOn axis (r.first axis) (r.first axis.other)).style := by
  rw [h.settledCell_heir hi hr hs hl]
  cases axis <;> rfl

theorem style_settledCell (h : Layout g R) (hi : Indexed R)
    (hn : ∀ r ∈ R, line = pos + 1 → r.startsOn axis pos offset = true → ¬pos < r.last axis) :
    (g.settledCell axis pos (g.meeting axis pos) line offset).style =
      (g.cellOn axis line offset).style := by
  rw [h.settledCell_of_not_heir hi hn]
  split_ifs <;> simp

theorem edited (h : Layout g R) (hi : Indexed R) (ha : e.Applies (g.lineCount axis)) :
    Layout (g.edited axis e) (CellRange.kept axis e R) := by
  cases e with
  | insert pos =>
    have hkept : CellRange.kept axis (.insert pos) R = CellRange.grown axis pos '' R := by
      have hall : {r ∈ R | r.Keeps axis (.insert pos) ∧
          (r.edited axis (.insert pos)).isSingle = false} = R := Set.sep_eq_self_iff_mem_true.mpr
        fun r hr => ⟨trivial, CellRange.isSingle_grown.trans (h.proper r hr)⟩
      rw [CellRange.kept, hall]
      rfl
    rw [hkept]
    exact h.inserted hi axis pos
  | delete pos =>
    obtain ⟨hp, hn⟩ := ha
    exact h.deleted hi hp (by omega)

/-- What is kept of a region lies in the edited grid. -/
theorem lt_of_edited (h : Layout g R) (ha : e.Applies (g.lineCount axis)) (hr : r ∈ R)
    (hk : r.Keeps axis e) (hc : (r.edited axis e).ContainsOn axis line offset) :
    line < e.lines (g.lineCount axis) ∧ offset < g.lineCount axis.other := by
  have hin : ∀ a, (r.edited axis e).last a < (g.edited axis e).lineCount a := by
    cases e with
    | insert pos => exact h.grown_inside hr
    | delete pos => exact h.shrunk_inside hr hk ha.1
  rw [Axis.forall_iff axis, lineCount_edited, lineCount_other_edited] at hin
  exact ⟨hc.1.2.trans_lt hin.1, hc.2.2.trans_lt hin.2⟩

theorem indexed_kept (h : Layout g R) (hf : g.Fits) (ha : e.Applies (g.lineCount axis)) :
    Indexed (CellRange.kept axis e R) := by
  apply (h.edited (h.indexed hf) ha).indexed_of_le
  have hmax := h.lineCount_le hf
  have hlines : e.lines (g.lineCount axis) ≤ g.lineCount axis + 1 := LineEdit.lines_le
  rw [Axis.forall_iff axis] at hmax ⊢
  rw [lineCount_edited, lineCount_other_edited]
  omega

/-- The style of a region comes with it. -/
theorem style_first (h : Layout g R) (hi : Indexed R) (ha : e.Applies (g.lineCount axis))
    (hr : r ∈ R) (hk : r.Keeps axis e) (hs : (r.edited axis e).startsOn axis line offset = true) :
    ((g.edited axis e).cellOn axis line offset).style =
      (g.cellOn axis (r.first axis) (r.first axis.other)).style := by
  have hord := h.ordered r hr
  have hc := CellRange.containsOn_of_startsOn (hord.edited hk) hs
  have hin := h.lt_of_edited ha hr hk hc
  cases e with
  | insert pos =>
    rw [Grid.edited, cellOn_inserted hin.1 hin.2, style_insertedCell]
    rcases CellRange.startsOn_grown.mp hs with ⟨hl, hs⟩ | ⟨hl, hs⟩
    · obtain ⟨rfl, rfl⟩ := CellRange.startsOn_iff.mp hs
      rw [if_neg (by simpa [LineEdit.Fresh] using hl.ne'), LineEdit.source, if_pos hl.le]
    · obtain ⟨hfirst, rfl⟩ := CellRange.startsOn_iff.mp hs
      rw [if_neg (by simpa [LineEdit.Fresh] using hl.ne), LineEdit.source, if_neg hl.not_ge, hfirst]
  | delete pos =>
    rw [Grid.edited, cellOn_deleted hin.1 hin.2]
    by_cases hheir : ∃ s ∈ R, shifted pos line = pos + 1 ∧ s.startsOn axis pos offset = true ∧
        pos < s.last axis
    · obtain ⟨s, hsR, hnext, hss, hl⟩ := hheir
      have hsc := CellRange.containsOn_next (h.ordered s hsR) hss hl
      have hrc := (CellRange.containsOn_shrunk hk).mp hc
      rw [hnext] at hrc ⊢
      rw [h.style_heir hi hsR hss hl, h.eq_on hr hsR hrc hsc]
    · push Not at hheir
      rw [h.style_settledCell hi fun s hsR hnext hss => (hheir s hsR hnext hss).not_gt]
      rcases CellRange.startsOn_shrunk.mp hs with hs | ⟨rfl, hs⟩
      · obtain ⟨hfirst, hother⟩ := CellRange.startsOn_iff.mp hs
        rw [hfirst, hother]
      · -- the region would have lost its only line
        have hnext : shifted line line = line + 1 := if_neg (lt_irrefl line)
        have hlast := hheir r hr hnext hs
        have hrc := ((CellRange.containsOn_shrunk hk).mp hc).1.2
        omega

/-- Outside the regions that are kept, a style comes with its line, and new lines have none. -/
theorem style_outside (h : Layout g R) (hi : Indexed R) (ha : e.Applies (g.lineCount axis))
    (hn : ¬CellRange.KeptOn R axis e line offset) :
    ((g.edited axis e).cellOn axis line offset).style =
      if e.Fresh line then .unset else (g.cellOn axis (e.source line) offset).style := by
  by_cases hin : line < e.lines (g.lineCount axis) ∧ offset < g.lineCount axis.other
  · cases e with
    | insert pos =>
      exact (congrArg Cell.style (cellOn_inserted hin.1 hin.2)).trans style_insertedCell
    | delete pos =>
      rw [Grid.edited, cellOn_deleted hin.1 hin.2, h.style_settledCell hi]
      · rfl
      · intro s hsR hnext hss hl
        have hsc := CellRange.containsOn_next (h.ordered s hsR) hss hl
        rw [← hnext] at hsc
        exact hn ⟨s, hsR, CellRange.containsOn_edited LineEdit.not_fresh_delete hsc⟩
  · rw [cellOn_edited_of_not_lt ha hin, apply_ite Cell.style]
    rfl

/-- A place that is not kept is free. -/
theorem not_mem_kept (hn : ¬CellRange.KeptOn R axis e line offset) :
    ∀ r ∈ CellRange.kept axis e R, ¬r.ContainsOn axis line offset := by
  rintro _ ⟨r, ⟨hr, hk, -⟩, rfl⟩ hc
  exact hn ⟨r, hr, hk, hc⟩

/-- The style of a place is that of its source, unless the place is new and in no region. -/
theorem styleOn_edited (h : Layout g R) (hi : Indexed R) (hi' : Indexed (CellRange.kept axis e R))
    (ha : e.Applies (g.lineCount axis))
    (hkept : e.Fresh line → CellRange.KeptOn R axis e line offset) :
    (g.edited axis e).styleOn axis line offset = g.styleOn axis (e.source line) offset := by
  have hlayout := h.edited hi ha
  by_cases hk : CellRange.KeptOn R axis e line offset
  · obtain ⟨r, hr, hk, hc⟩ := hk
    have hold := CellRange.containsOn_source hk hc
    rw [h.styleOn_of_containsOn hi hr hold]
    cases hs : (r.edited axis e).isSingle with
    | false =>
      have hmem : r.edited axis e ∈ CellRange.kept axis e R := ⟨r, ⟨hr, hk, hs⟩, rfl⟩
      rw [hlayout.styleOn_of_containsOn hi' hmem hc]
      exact h.style_first hi ha hr hk (CellRange.startsOn_iff.mpr ⟨rfl, rfl⟩)
    | true =>
      -- a single cell that is left is no region
      rw [hlayout.styleOn_of_free, h.style_first hi ha hr hk (CellRange.startsOn_of_isSingle hs hc)]
      rintro _ ⟨s, ⟨hsR, hsk, hsingle⟩, rfl⟩ hsc
      rw [← h.eq_on hr hsR hold (CellRange.containsOn_source hsk hsc), hs] at hsingle
      contradiction
  · rw [hlayout.styleOn_of_free (not_mem_kept hk), h.style_outside hi ha hk,
      if_neg fun hf => hk (hkept hf), h.styleOn_of_free]
    exact fun r hr hc => hk ⟨r, hr, CellRange.containsOn_edited (fun hf => hk (hkept hf)) hc⟩

theorem styleOn_edited_fresh (h : Layout g R) (hi : Indexed R) (ha : e.Applies (g.lineCount axis))
    (hf : e.Fresh line) (hn : ¬CellRange.KeptOn R axis e line offset) :
    (g.edited axis e).styleOn axis line offset = .unset := by
  rw [(h.edited hi ha).styleOn_of_free (not_mem_kept hn), h.style_outside hi ha hn, if_pos hf]

end Layout
end Grid
end LatexTable
