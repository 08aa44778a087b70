import LatexTable.Grid.Lines
import Mathlib.Data.Set.Image
import Mathlib.Tactic.Common
/-!
Rectangles along an axis. What holds of rows holds of columns, so facts are stated by first and
last line along an axis; a place is then a line and an offset.
-/
namespace LatexTable

namespace Axis

@[simp] theorem other_other (axis : Axis) : axis.other.other = axis := by cases axis <;> rfl

theorem forall_iff {P : Axis → Prop} (axis : Axis) : (∀ a, P a) ↔ P axis ∧ P axis.other := by
  constructor
  · intro h
    exact ⟨h axis, h axis.other⟩
  · rintro ⟨h, ho⟩ a
    cases a <;> cases axis <;> assumption

/-- Every place is the place of a line at an offset. -/
theorem exists_place (axis : Axis) (row col : Nat) :
    ∃ line offset, row = (axis.place line offset).1 ∧ col = (axis.place line offset).2 := by
  cases axis
  · exact ⟨row, col, rfl, rfl⟩
  · exact ⟨col, row, rfl, rfl⟩

end Axis

namespace CellRange

variable {r s : CellRange} {axis : Axis} {row col line offset : Nat}

theorem ext_axis (h : ∀ axis, r.first axis = s.first axis ∧ r.last axis = s.last axis) : r = s := by
  have hr := h .row
  have hc := h .column
  cases r
  cases s
  simp_all [first, last]

theorem contains_iff :
    r.contains row col = true ↔
      (r.minRow ≤ row ∧ row ≤ r.maxRow) ∧ (r.minCol ≤ col ∧ col ≤ r.maxCol) := by
  simp [contains, and_assoc]

theorem contains_place :
    r.contains (axis.place line offset).1 (axis.place line offset).2 = true ↔
      (r.first axis ≤ line ∧ line ≤ r.last axis) ∧
        (r.first axis.other ≤ offset ∧ offset ≤ r.last axis.other) := by
  rw [contains_iff]
  cases axis
  · rfl
  · exact And.comm

theorem startsAt_iff : r.startsAt row col = true ↔ r.minRow = row ∧ r.minCol = col := by
  simp [startsAt]

@[simp] theorem startsAt_first (r : CellRange) : r.startsAt r.minRow r.minCol = true :=
  startsAt_iff.mpr ⟨rfl, rfl⟩

theorem startsAt_place :
    r.startsAt (axis.place line offset).1 (axis.place line offset).2 = true ↔
      r.first axis = line ∧ r.first axis.other = offset := by
  rw [startsAt_iff]
  cases axis
  · rfl
  · exact And.comm

theorem intersects_iff :
    r.intersects s = true ↔ ∀ axis, r.first axis ≤ s.last axis ∧ s.first axis ≤ r.last axis := by
  rw [Axis.forall_iff .row]
  simp [intersects, first, last, Axis.other, and_assoc]

theorem isSingle_iff : r.isSingle = true ↔ ∀ axis, r.first axis = r.last axis := by
  rw [Axis.forall_iff .row]
  simp [isSingle, first, last, Axis.other]

theorem hasLine_iff : r.hasLine axis line = true ↔ r.first axis ≤ line ∧ line ≤ r.last axis := by
  simp [hasLine]

theorem lineCount_eq : r.lineCount axis = r.last axis - r.first axis + 1 := by
  cases axis <;> rfl

theorem intersects_comm : r.intersects s = s.intersects r := by
  rw [Bool.eq_iff_iff, intersects_iff, intersects_iff]
  exact forall_congr' fun _ => And.comm

/-- Neither side of the rectangle is turned around. -/
def Ordered (r : CellRange) : Prop := ∀ axis, r.first axis ≤ r.last axis

theorem Ordered.contains_first (h : r.Ordered) : r.contains r.minRow r.minCol = true :=
  contains_iff.mpr ⟨⟨le_rfl, h .row⟩, le_rfl, h .column⟩

/-- An ordered range has its first cell in each of its rows. -/
theorem Ordered.contains_edge (h : r.Ordered) (hrow : r.minRow ≤ row ∧ row ≤ r.maxRow) :
    r.contains row r.minCol = true := contains_iff.mpr ⟨hrow, le_rfl, h .column⟩

theorem contains_of_startsAt (hr : r.Ordered) (h : r.startsAt row col = true) :
    r.contains row col = true := by
  obtain ⟨rfl, rfl⟩ := startsAt_iff.mp h
  exact hr.contains_first

/-- Rectangles that share a cell meet. -/
theorem intersects_of_contains (hr : r.contains row col = true) (hs : s.contains row col = true) :
    r.intersects s = true := by
  obtain ⟨⟨a, b⟩, c, d⟩ := contains_iff.mp hr
  obtain ⟨⟨a', b'⟩, c', d'⟩ := contains_iff.mp hs
  rw [intersects_iff, Axis.forall_iff .row]
  exact ⟨⟨a.trans b', a'.trans b⟩, c.trans d', c'.trans d⟩

/-- Rectangles that meet share a cell. -/
theorem exists_contains_of_intersects (hr : r.Ordered) (hs : s.Ordered)
    (h : r.intersects s = true) :
    ∃ row col, r.contains row col = true ∧ s.contains row col = true := by
  have h' := intersects_iff.mp h
  refine ⟨max r.minRow s.minRow, max r.minCol s.minCol, ?_, ?_⟩ <;>
    · have hr₁ := hr .row
      have hr₂ := hr .column
      have hs₁ := hs .row
      have hs₂ := hs .column
      have h₁ := h' .row
      have h₂ := h' .column
      simp only [first, last] at *
      rw [contains_iff]
      omega

theorem ofCorners_ordered (rowA colA rowB colB : Nat) :
    (ofCorners rowA colA rowB colB).Ordered := by
  intro axis
  cases axis <;> simp only [first, last, ofCorners] <;> omega

theorem Ordered.ofCorners_eq (h : r.Ordered) :
    ofCorners r.minRow r.minCol r.maxRow r.maxCol = r := by
  have hrow : r.minRow ≤ r.maxRow := h .row
  have hcol : r.minCol ≤ r.maxCol := h .column
  rw [ofCorners, min_eq_left hrow, min_eq_left hcol, max_eq_right hrow, max_eq_right hcol]

/-- The rectangle with other lines along an axis. -/
def withLines (r : CellRange) (axis : Axis) (first last : Nat) : CellRange :=
  match axis with
  | .row => { r with minRow := first, maxRow := last }
  | .column => { r with minCol := first, maxCol := last }

variable {a b : Nat}

@[simp] theorem first_withLines : (r.withLines axis a b).first axis = a := by cases axis <;> rfl

@[simp] theorem last_withLines : (r.withLines axis a b).last axis = b := by cases axis <;> rfl

@[simp] theorem first_other_withLines :
    (r.withLines axis a b).first axis.other = r.first axis.other := by cases axis <;> rfl

@[simp] theorem last_other_withLines :
    (r.withLines axis a b).last axis.other = r.last axis.other := by cases axis <;> rfl

end CellRange
end LatexTable
