import LatexTable.Proofs.Document.Merges
import LatexTable.Proofs.Session.Edit
/-!
The session of a document starts consistent: its texts are filled up to one width, and its merges
and styles are operations on the grid of these texts.
-/
namespace LatexTable
open Result

namespace Grid

variable {texts : List (List String)} {n row col rows cols width : Nat}

theorem foldl_max_le_iff {ns : List Nat} {m : Nat} :
    ns.foldl max m ≤ n ↔ m ≤ n ∧ ∀ k ∈ ns, k ≤ n := by
  induction ns generalizing m with
  | nil => simp
  | cons k ns ih => simp [ih, and_assoc]

theorem widest_le_iff : widest texts ≤ n ↔ ∀ texts' ∈ texts, texts'.length ≤ n := by
  simp [widest, foldl_max_le_iff]

theorem widest_eq (hne : texts ≠ []) (h : ∀ texts' ∈ texts, texts'.length = width) :
    widest texts = width := by
  apply le_antisymm
  · exact widest_le_iff.mpr fun texts' ht => (h texts' ht).le
  · obtain ⟨first, hfirst⟩ := List.exists_mem_of_ne_nil texts hne
    rw [← h first hfirst]
    exact widest_le_iff.mp le_rfl first hfirst

/-- One row or more, filled up to a width. -/
def padded (width : Nat) (texts : List (List String)) : List (List String) :=
  (if texts = [] then [[]] else texts).map fun row => row ++ List.replicate (width - row.length) ""

theorem length_padded : (padded width texts).length = max texts.length 1 := by
  unfold padded
  cases texts <;> simp

theorem length_of_mem_padded (hw : widest texts ≤ width) :
    ∀ texts' ∈ padded width texts, texts'.length = width := by
  intro texts' ht
  obtain ⟨row, hrow, rfl⟩ := List.mem_map.mp ht
  have hlength : row.length ≤ width := by
    split at hrow
    · simp [List.mem_singleton.mp hrow]
    · exact widest_le_iff.mp hw row hrow
  simp [hlength]

theorem text_padded :
    (((padded width texts)[row]?.getD [])[col]?).getD "" =
      ((texts[row]?.getD [])[col]?).getD "" := by
  have hfill (filled : List String) :
      ((filled ++ List.replicate (width - filled.length) "")[col]?).getD "" =
        (filled[col]?).getD "" := by
    rw [List.getElem?_append]
    split
    next => rfl
    next hlt =>
      rw [List.getElem?_replicate, List.getElem?_eq_none (not_lt.mp hlt)]
      split <;> rfl
  unfold padded
  split
  next hnil =>
    subst hnil
    cases row with
    | zero => exact hfill []
    | succ row => rfl
  next =>
    cases hrow : texts[row]? with
    | none => simp [hrow]
    | some filled => simpa [hrow] using hfill filled

theorem ofTextsIn_eq_tabulate :
    ofTextsIn rows cols texts = tabulate rows cols fun row col =>
      .ofText (((texts[row]?.getD [])[col]?).getD "") := by
  unfold ofTextsIn
  dsimp only
  congr 1
  funext row col
  cases hrow : texts[row]? <;> simp [hrow]

/-- Texts in a wider grid are the texts of the filled rows. -/
theorem ofTextsIn_eq_ofTexts (hw : widest texts ≤ width) (hpos : 0 < width) :
    ofTextsIn (max texts.length 1) width texts = ofTexts (padded width texts) := by
  have hne : padded width texts ≠ [] := by
    rw [← List.length_pos_iff, length_padded]
    omega
  have hrows : max (padded width texts).length 1 = max texts.length 1 := by
    rw [length_padded]
    omega
  have hcols : max (widest (padded width texts)) 1 = width := by
    rw [widest_eq hne (length_of_mem_padded hw)]
    omega
  rw [ofTexts, hrows, hcols, ofTextsIn_eq_tabulate, ofTextsIn_eq_tabulate]
  simp only [text_padded]

end Grid

namespace TableDocument

variable {d : TableDocument} {s : Session} {g g' : Grid}

/-- The grid of the texts alone. -/
def textGrid (d : TableDocument) : Grid := Grid.ofTextsIn d.height d.width d.rows

theorem textGrid_reachable (hf : d.textGrid.Fits) : d.textGrid.Reachable := by
  have heq : d.textGrid = Grid.ofTexts (Grid.padded d.width d.rows) := by
    apply Grid.ofTextsIn_eq_ofTexts <;> simp only [width] <;> omega
  rw [heq] at hf ⊢
  exact .ofTexts _ hf

theorem addMerge_reachable {merged merged' : List CellRange × Grid} {m : MergeSpec}
    (h : merged.2.Reachable) (hm : addMerge merged m = .ok merged') : merged'.2.Reachable := by
  simp only [addMerge, bind_eq_ok] at hm
  obtain ⟨r, hr, hm⟩ := hm
  obtain rfl := (MergeSpec.range_eq_ok_iff.mp hr).2
  have hord := m.rectangle_ordered
  split at hm
  · cases hm
  · simp only [bind_eq_ok, pure_eq_ok] at hm
    obtain ⟨g, hg, rfl⟩ := hm
    have hrun : (Grid.Edit.merge _ _ _ _).run merged.2 = .ok g := hord.ofCorners_eq.symm ▸ hg
    exact h.of_run_same_size hrun (Grid.merge_size hord hg)

theorem addStyle_reachable {style : StyleSpec} (h : g.Reachable)
    (hs : addStyle g style = .ok g') : g'.Reachable := by
  simp only [addStyle, bind_eq_ok, Prod.exists] at hs
  obtain ⟨g₁, applied, hg, hs⟩ := hs
  split at hs
  · obtain rfl := pure_eq_ok.mp hs
    exact h.of_run_same_size (e := .updateCell _ _ _)
      (InPlace.changed_silent_eq_ok_iff.mpr ⟨applied, hg⟩)
      (Grid.updateCell_size hg)
  · cases hs

theorem toSession_eq_ok (h : d.toSession = .ok s) (hf : d.textGrid.Fits) :
    ∃ g columns t, g.Reachable ∧ Session.ofParts g columns = .ok t ∧
      s = { t with dialect := d.dialect, options := d.options } := by
  simp only [toSession, bind_eq_ok, pure_eq_ok, Prod.exists] at h
  obtain ⟨merged, g₁, hmerges, g, hstyles, t, ht, rfl⟩ := h
  have hmerged : g₁.Reachable :=
    foldlM_invariant (P := fun merged : List CellRange × Grid => merged.2.Reachable)
      (fun _ _ _ => addMerge_reachable) (textGrid_reachable hf) hmerges
  have hstyled : g.Reachable :=
    foldlM_invariant (fun _ _ _ => addStyle_reachable) hmerged hstyles
  exact ⟨g, _, t, hstyled, ht, rfl⟩

end TableDocument
end LatexTable
