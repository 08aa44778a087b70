import LatexTable.Proofs.Grid.Owner
import LatexTable.Proofs.Grid.Reachable
/-!
Who owns a place. The search for an owner goes back from the place, so it sees owners above and to
the left only, and takes the first region that reaches the place. On a reachable grid it finds the
one visible cell whose footprint holds the place.
-/
namespace LatexTable.Grid

variable {g : Grid} {R : Set CellRange} {row col row' col' : Nat} {p : Nat × Nat}

/-- The first cell on the way back from a place whose region reaches the place. -/
def coveringMaster? (g : Grid) (row col : Nat) : Option (Nat × Nat) :=
  (placesBack row col).find? fun (r, c) =>
    (g.cellAt r c).isMaster && ((g.cellAt r c).footprint r c).contains row col

theorem ownerAt_eq (g : Grid) (row col : Nat) : g.ownerAt row col =
    if (g.cellAt row col).hidden then (g.coveringMaster? row col).getD (row, col)
    else (row, col) := rfl

/-- What the owner of a place is: the visible cell whose footprint holds the place, found by the
search when the place is hidden, and its own owner. -/
structure OwnedBy (g : Grid) (row col : Nat) (owner : Nat × Nat) : Prop where
  answer : g.ownerOf row col = .ok owner
  covers_iff : ∀ p, g.Covers p (row, col) ↔ p = owner
  found : (g.cellAt row col).hidden = true → g.coveringMaster? row col = some owner
  self : (g.cellAt row col).hidden = false → owner = (row, col)
  fixed : g.ownerOf owner.1 owner.2 = .ok owner

namespace Layout

theorem covers_ownerAt (h : Layout g R) (hf : g.Fits) (hr : row < g.rows) (hc : col < g.cols) :
    g.Covers (g.ownerAt row col) (row, col) := by
  by_cases hfree : ∀ r ∈ R, r.contains row col = false
  · rw [ownerAt_of_visible (h.free row col hfree).1]
    exact h.covers_self hf hr hc hfree
  · push Not at hfree
    obtain ⟨r, hrR, hrc⟩ := hfree
    rw [ne_eq, Bool.not_eq_false] at hrc
    rw [h.ownerAt_of_contains (h.indexed hf) hrR hrc]
    exact h.covers_owner hf hrR hrc

/-- The owner is the only visible cell that covers the place. -/
theorem covers_iff_ownerAt (h : Layout g R) (hf : g.Fits) (hr : row < g.rows)
    (hc : col < g.cols) : g.Covers p (row, col) ↔ p = g.ownerAt row col := by
  have howner := h.covers_ownerAt hf hr hc
  constructor
  · exact fun hp => (h.existsUnique_covers hf hr hc).unique hp howner
  · rintro rfl
    exact howner

/-- The search never runs out: a place without an owner would be its own, and visible. -/
theorem coveringMaster?_of_hidden (h : Layout g R) (hf : g.Fits) (hr : row < g.rows)
    (hc : col < g.cols) (hh : (g.cellAt row col).hidden = true) :
    g.coveringMaster? row col = some (g.ownerAt row col) := by
  have hvisible : (g.cellAt (g.ownerAt row col).1 (g.ownerAt row col).2).hidden = false :=
    (h.covers_ownerAt hf hr hc).2.1
  rw [ownerAt_eq, if_pos hh] at hvisible ⊢
  cases hfind : g.coveringMaster? row col with
  | none => simp [hfind, hh] at hvisible
  | some owner => rfl

theorem ownedBy (h : Layout g R) (hf : g.Fits) (hr : row < g.rows) (hc : col < g.cols) :
    g.OwnedBy row col (g.ownerAt row col) where
  answer := ownerOf_of_lt hr hc
  covers_iff _ := h.covers_iff_ownerAt hf hr hc
  found := h.coveringMaster?_of_hidden hf hr hc
  self := ownerAt_of_visible
  fixed := by
    obtain ⟨⟨hrow, hcol⟩, hv, -⟩ := h.covers_ownerAt hf hr hc
    rw [ownerOf_of_lt hrow hcol, ownerAt_of_visible hv]

/-- Places with one owner are the places of one footprint. -/
theorem ownerOf_eq_iff (h : Layout g R) (hf : g.Fits) (hr : row < g.rows) (hc : col < g.cols)
    (hr' : row' < g.rows) (hc' : col' < g.cols) : g.ownerOf row col = g.ownerOf row' col' ↔
      ∃ p, g.Covers p (row, col) ∧ g.Covers p (row', col') := by
  simp only [ownerOf_of_lt hr hc, ownerOf_of_lt hr' hc', Except.ok.injEq,
    h.covers_iff_ownerAt hf hr hc, h.covers_iff_ownerAt hf hr' hc', exists_eq_left]

end Layout

/-- The owners of a reachable grid are the blocks of its partition: every place is owned by the
one visible cell whose footprint holds it, and two places have one owner exactly when one footprint
holds both. -/
theorem reachable_owned (h : Reachable g) (hr : row < g.rows) (hc : col < g.cols)
    (hr' : row' < g.rows) (hc' : col' < g.cols) :
    (∃ owner, g.OwnedBy row col owner) ∧
      (g.ownerOf row col = g.ownerOf row' col' ↔
        ∃ p, g.Covers p (row, col) ∧ g.Covers p (row', col')) :=
  ⟨⟨_, h.layout.ownedBy h.fits hr hc⟩, h.layout.ownerOf_eq_iff h.fits hr hc hr' hc'⟩

theorem reachable_owned_beside :
    let g := ((Grid.blank 3 4).after (.merge 0 2 2 1)).after (.merge 0 3 1 3)
    (g.cellAt 1 3).hidden = true ∧ (∃ owner, g.OwnedBy 1 3 owner) ∧
      (g.ownerOf 1 3 = g.ownerOf 1 2 ↔ ∃ p, g.Covers p (1, 3) ∧ g.Covers p (1, 2)) := by
  intro g
  have hreach : Reachable g := .edit _ (.edit _ (.blank 3 4 (by decide)) (by decide)) (by decide)
  exact ⟨by decide, reachable_owned hreach (by decide) (by decide) (by decide) (by decide)⟩

end LatexTable.Grid
