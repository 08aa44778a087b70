import LatexTable.Proofs.Grid.View
import LatexTable.Proofs.Guarded.Basic
import Mathlib.Data.List.OfFn
/-!
Stores of values for the places of a grid, row by row: reading and writing at a place, and the rows
as pieces of the store.
-/
namespace LatexTable

namespace Guarded

/-- Where the value of a place is stored. -/
def offset (cols row col : Nat) : Guarded Nat := do add (← mul row cols) col

end Guarded

section Lists

variable {α : Type} {ls : List (List α)} {n pos : Nat} {f : Nat → α}

theorem drop_flatten (h : ∀ l ∈ ls, l.length = n) (i : Nat) :
    ls.flatten.drop (i * n) = (ls.drop i).flatten := by
  induction ls generalizing i with
  | nil => simp
  | cons l ls ih =>
    have hl : l.length = n := h l List.mem_cons_self
    cases i with
    | zero => simp
    | succ i =>
      rw [List.drop_succ_cons, ← ih (fun m hm => h m (List.mem_cons_of_mem l hm)) i,
        List.flatten_cons, Nat.succ_mul, Nat.add_comm, ← hl, List.drop_length_add_append]

theorem take_flatten (h : ∀ l ∈ ls, l.length = n) (i : Nat) :
    ls.flatten.take (i * n) = (ls.take i).flatten := by
  induction ls generalizing i with
  | nil => simp
  | cons l ls ih =>
    have hl : l.length = n := h l List.mem_cons_self
    cases i with
    | zero => simp
    | succ i =>
      rw [List.take_succ_cons, List.flatten_cons, List.flatten_cons,
        ← ih (fun m hm => h m (List.mem_cons_of_mem l hm)) i, Nat.succ_mul, Nat.add_comm, ← hl,
        List.take_length_add_append]

theorem length_flatten_uniform (h : ∀ l ∈ ls, l.length = n) :
    ls.flatten.length = ls.length * n := by
  rw [List.length_flatten, List.map_eq_replicate_iff.mpr h, List.sum_replicate_nat]

/-- A list that is cut into the lists that it was joined from. -/
theorem Guarded.chunks_flatten (hn : 0 < n) (h : ∀ l ∈ ls, l.length = n) :
    Guarded.chunks n ls.flatten = .ok ls := by
  have hpieces : (ls.flatten.length + n - 1) / n = ls.length := by
    rw [length_flatten_uniform h, Nat.add_sub_assoc hn, Nat.add_comm, Nat.add_mul_div_right _ _ hn,
      Nat.div_eq_of_lt (by omega), Nat.zero_add]
  rw [Guarded.chunks, if_neg hn.ne', hpieces]
  congr 1
  apply List.ext_getElem (by simp)
  intro i _ hi
  rw [List.getElem_map, List.getElem_range, drop_flatten h, List.drop_eq_getElem_cons hi,
    List.flatten_cons, ← h ls[i] (List.getElem_mem hi), List.take_left]

/-- One more list between those that a list was joined from. -/
theorem Guarded.splice_flatten (h : ∀ l ∈ ls, l.length = n) (hpos : pos ≤ ls.length) (a : List α) :
    Guarded.splice ls.flatten (pos * n) (pos * n) a =
      .ok (ls.take pos ++ a :: ls.drop pos).flatten := by
  rw [Guarded.splice_eq le_rfl (by
      rw [length_flatten_uniform h]
      exact Nat.mul_le_mul_right _ hpos),
    take_flatten h, drop_flatten h, List.flatten_append, List.flatten_cons, List.append_assoc]

/-- One of the lists that a list was joined from, taken out. -/
theorem Guarded.drain_flatten (h : ∀ l ∈ ls, l.length = n) (hpos : pos < ls.length) :
    Guarded.splice ls.flatten (pos * n) (pos * n + n) [] =
      .ok (ls.take pos ++ ls.drop (pos + 1)).flatten := by
  have hstop : pos * n + n = (pos + 1) * n := (Nat.succ_mul pos n).symm
  rw [Guarded.splice_eq (Nat.le_add_right ..) (by
      rw [length_flatten_uniform h, hstop]
      exact Nat.mul_le_mul_right _ hpos),
    hstop, take_flatten h, drop_flatten h, List.flatten_append, List.append_nil]

/-- A list of values by index, with one more put before an index. -/
theorem insert_map_range (hpos : pos ≤ n) (a : α) :
    ((List.range n).map f).take pos ++ a :: ((List.range n).map f).drop pos =
      (List.range (n + 1)).map fun i =>
        if i < pos then f i else if i = pos then a else f (i - 1) := by
  apply List.ext_getElem (by simp; omega)
  intro i hi _
  simp only [List.getElem_append, List.getElem_cons, List.getElem_take, List.getElem_drop,
    List.getElem_map, List.getElem_range, List.length_take, List.length_map, List.length_range,
    Nat.min_eq_left hpos]
  split_ifs with h₁ h₂ h₃ h₄
  · rfl
  · rfl
  · omega
  · omega
  · exact congrArg f (by omega)

/-- A list of values by index, with the one at an index taken out. -/
theorem erase_map_range (hpos : pos < n) :
    ((List.range n).map f).take pos ++ ((List.range n).map f).drop (pos + 1) =
      (List.range (n - 1)).map fun i => f (Grid.shifted pos i) := by
  apply List.ext_getElem (by simp; omega)
  intro i hi _
  simp only [List.getElem_append, List.getElem_take, List.getElem_drop, List.getElem_map,
    List.getElem_range, List.length_take, List.length_map, List.length_range,
    Nat.min_eq_left hpos.le, Grid.shifted]
  split_ifs with h
  · rfl
  · exact congrArg f (by omega)

theorem zipIdx_map_range :
    ((List.range n).map f).zipIdx = (List.range n).map fun i => (f i, i) := by
  apply List.ext_getElem <;> simp

/-- The elements that do not stand at an index. -/
theorem filter_zipIdx (xs : List α) (pos start : Nat) :
    ((xs.zipIdx start).filter fun (_, i) => i ≠ start + pos).map Prod.fst =
      xs.take pos ++ xs.drop (pos + 1) := by
  induction xs generalizing pos start with
  | nil => simp
  | cons x xs ih =>
    cases pos with
    | zero =>
      have hrest : (xs.zipIdx (start + 1)).filter (fun (_, i) => i ≠ start + 0) =
          xs.zipIdx (start + 1) := by
        rw [List.filter_eq_self]
        rintro ⟨y, i⟩ hy
        have hle := List.le_snd_of_mem_zipIdx hy
        simp only [decide_eq_true_eq]
        omega
      rw [List.zipIdx_cons, List.filter_cons_of_neg (by simp), hrest, List.zipIdx_map_fst]
      rfl
    | succ pos =>
      have hnext : start + (pos + 1) = start + 1 + pos := by omega
      rw [List.zipIdx_cons, List.filter_cons_of_pos (by simp), List.map_cons, hnext, ih]
      rfl

end Lists

section Arrays

variable {α : Type} {rows cols row col : Nat} {f : Nat → Nat → α}

/-- The values of the places, row by row. -/
def laidOut (rows cols : Nat) (f : Nat → Nat → α) : Array α :=
  Array.ofFn fun i : Fin (rows * cols) => f (i / cols) (i % cols)

theorem size_laidOut : (laidOut rows cols f).size = rows * cols := Array.size_ofFn

/-- The place of an index in the store. -/
theorem index_eq_iff (hc : col < cols) (row : Nat) {i : Nat} :
    row * cols + col = i ↔ i / cols = row ∧ i % cols = col := by
  have hpos : 0 < cols := Nat.zero_lt_of_lt hc
  constructor
  · rintro rfl
    rw [Nat.add_comm, Nat.add_mul_div_right _ _ hpos, Nat.div_eq_of_lt hc,
      Nat.add_mul_mod_self_right, Nat.mod_eq_of_lt hc, Nat.zero_add]
    exact ⟨rfl, rfl⟩
  · rintro ⟨rfl, rfl⟩
    exact Nat.div_add_mod' i cols

theorem laidOut_congr {h : Nat → Nat → α} (heq : ∀ r < rows, ∀ c < cols, f r c = h r c) :
    laidOut rows cols f = laidOut rows cols h := by
  unfold laidOut
  congr 1
  funext i
  have hpos : 0 < cols := Nat.pos_of_mul_pos_left (Nat.zero_lt_of_lt i.isLt)
  exact heq _ ((Nat.div_lt_iff_lt_mul hpos).mpr i.isLt) _ (Nat.mod_lt _ hpos)

theorem toList_laidOut :
    (laidOut rows cols f).toList =
      ((List.range rows).map fun r => (List.range cols).map (f r)).flatten := by
  have hrange {β : Type} (n : Nat) (v : Nat → β) :
      List.ofFn (fun i : Fin n => v i) = (List.range n).map v := by
    apply List.ext_getElem <;> simp
  rw [laidOut, Array.toList_ofFn, List.ofFn_mul, ← hrange]
  congr 2
  funext i
  rw [← hrange]
  congr 1
  funext j
  obtain ⟨hdiv, hmod⟩ := (index_eq_iff j.isLt i).mp rfl
  simp only [hdiv, hmod]

namespace Guarded

theorem offset_eq (hr : row < rows) (hc : col < cols) (hfits : rows * cols ≤ maxIndex) :
    offset cols row col = .ok (row * cols + col) := by
  have hlt := Grid.index_lt hr hc
  rw [offset, mul_eq (by omega), ok_bind, add_eq (by omega)]

theorem read_laidOut (hr : row < rows) (hc : col < cols) :
    read (laidOut rows cols f) (row * cols + col) = .ok (f row col) := by
  obtain ⟨hdiv, hmod⟩ := (index_eq_iff hc row).mp rfl
  apply read_eq
  simp [laidOut, Grid.index_lt hr hc, hdiv, hmod]

theorem write_laidOut (hr : row < rows) (hc : col < cols) (a : α) :
    write (laidOut rows cols f) (row * cols + col) a =
      .ok (laidOut rows cols fun r c => if r = row ∧ c = col then a else f r c) := by
  have hlt := Grid.index_lt hr hc
  rw [write_eq (by rwa [size_laidOut])]
  congr 1
  apply Array.ext (by simp [laidOut])
  intro i hi _
  have hi' : i < (laidOut rows cols f).size := by simpa using hi
  rw [Array.getElem_setIfInBounds hi']
  simp only [laidOut, Array.getElem_ofFn, index_eq_iff hc]

end Guarded
end Arrays

namespace Grid

variable {g : Grid} {rows cols row col : Nat} {f : Nat → Nat → Cell}

theorem tabulate_eq : tabulate rows cols f = ⟨rows, cols, laidOut rows cols f⟩ := rfl

theorem tabulate_congr {h : Nat → Nat → Cell}
    (heq : ∀ row < rows, ∀ col < cols, f row col = h row col) :
    tabulate rows cols f = tabulate rows cols h := by
  rw [tabulate_eq, tabulate_eq, laidOut_congr heq]

theorem Full.eq_tabulate (h : g.Full) : g = tabulate g.rows g.cols g.cellAt :=
  h.ext (tabulate_full ..) rfl rfl fun _ _ hr hc => (cellAt_tabulate hr hc).symm

theorem Full.cells_eq (h : g.Full) : g.cells = laidOut g.rows g.cols g.cellAt :=
  congrArg cells h.eq_tabulate

theorem Full.toList_cells (h : g.Full) : g.cells.toList = g.rowList.flatten := by
  rw [h.cells_eq, toList_laidOut, rowList]

theorem length_of_mem_rowList {line : List Cell} (h : line ∈ g.rowList) : line.length = g.cols := by
  obtain ⟨row, -, rfl⟩ := List.mem_map.mp h
  simp

theorem length_rowList : g.rowList.length = g.rows := by simp [rowList]

/-- Rows of cells that are put one after the other make up the store of a grid. -/
theorem eq_tabulate_of_rows {lines : List (List Cell)}
    (h : lines = (List.range rows).map fun r => (List.range cols).map (f r)) :
    (⟨rows, cols, lines.flatten.toArray⟩ : Grid) = tabulate rows cols f := by
  rw [tabulate_eq, h, ← toList_laidOut, Array.toArray_toList]

end Grid
end LatexTable
