import LatexTable.Proofs.Document.Styles
import LatexTable.Proofs.Session.Reachable
/-!
Which documents make a session, and which session they make. A document is accepted exactly when
its merges lie in the grid without sharing a cell and its styles name visible cells; everything in
the session can then be read off the document, and the order of the merges plays no part.
-/
namespace LatexTable
open Result

namespace MergeSpec

variable {m n : MergeSpec} {row col : Nat}

/-- The merge covers the place; spans of zero are read as one. -/
def Covers (m : MergeSpec) (row col : Nat) : Prop :=
  (m.row ≤ row ∧ row < m.row + max m.rows 1) ∧ (m.col ≤ col ∧ col < m.col + max m.cols 1)

theorem contains_rectangle : m.rectangle.contains row col = true ↔ m.Covers row col := by
  rw [CellRange.contains_iff]
  simp only [rectangle, bound, Covers]
  omega

theorem intersects_rectangle :
    m.rectangle.intersects n.rectangle = true ↔ ∃ row col, m.Covers row col ∧ n.Covers row col := by
  simp only [← contains_rectangle]
  constructor
  · exact CellRange.exists_contains_of_intersects m.rectangle_ordered n.rectangle_ordered
  · rintro ⟨row, col, hm, hn⟩
    exact CellRange.intersects_of_contains hm hn

theorem isSingle_rectangle : m.rectangle.isSingle = false ↔ 1 < m.rows ∨ 1 < m.cols := by
  rw [← Bool.not_eq_true, CellRange.isSingle_iff, Axis.forall_iff .row]
  simp only [CellRange.first, CellRange.last, Axis.other, rectangle, bound]
  omega

end MergeSpec

namespace Grid

variable {g : Grid} {R : Set CellRange} {rs ss : List CellRange} {styles : List StyleSpec}
  {row col : Nat}

namespace Apart

theorem perm (h : Apart g rs) (hp : rs.Perm ss) : Apart g ss where
  ordered := fun r hr => h.ordered r (hp.mem_iff.mpr hr)
  inside := fun r hr => h.inside r (hp.mem_iff.mpr hr)
  apart := (hp.pairwise_iff fun hrs => CellRange.intersects_comm.trans hrs).mp h.apart

/-- The order of the rectangles does not matter. -/
theorem merged_perm (h : Apart g rs) (hp : rs.Perm ss) : g.merged rs = g.merged ss := by
  have hcell (row col : Nat) : g.mergedCell rs row col = g.mergedCell ss row col := by
    by_cases hin : ∃ r ∈ rs, r.contains row col = true
    · obtain ⟨r, hr, hc⟩ := hin
      rw [h.mergedCell_of_contains hr hc,
        (h.perm hp).mergedCell_of_contains (hp.mem_iff.mp hr) hc]
    · push Not at hin
      simp only [ne_eq, Bool.not_eq_true] at hin
      rw [mergedCell_of_not_contains hin,
        mergedCell_of_not_contains fun r hr => hin r (hp.mem_iff.mpr hr)]
  simp only [merged, funext₂ hcell]

/-- The cells that merges cover besides their first ones are the hidden ones. -/
theorem hidden_merged (h : Apart g rs) (hg : Layout g ∅) :
    ((g.merged rs).cellAt row col).hidden = true ↔
      ∃ r ∈ rs, r.contains row col = true ∧ r.startsAt row col = false := by
  rw [(h.layout hg).hidden_iff]
  constructor
  · rintro ⟨r, ⟨hr, -⟩, hc, hs⟩
    exact ⟨r, hr, hc, hs⟩
  · rintro ⟨r, hr, hc, hs⟩
    refine ⟨r, ⟨hr, ?_⟩, hc, hs⟩
    by_contra hsingle
    rw [CellRange.startsAt_of_isSingle ((Bool.not_eq_false _).mp hsingle) hc] at hs
    contradiction

/-- Visible cells keep text and style. -/
theorem content_merged (h : Apart g rs) (hv : ((g.merged rs).cellAt row col).hidden = false) :
    ((g.merged rs).cellAt row col).content = (g.cellAt row col).content := by
  rw [h.cellAt_merged] at hv ⊢
  by_cases hin : ∃ r ∈ rs, r.contains row col = true
  · obtain ⟨r, hr, hc⟩ := hin
    rw [h.mergedCell_of_contains hr hc] at hv ⊢
    split_ifs at hv ⊢
    · rfl
    · contradiction
  · push Not at hin
    rw [mergedCell_of_not_contains (by simpa using hin)]

end Apart

/-- New styles of visible cells change no region. -/
theorem Layout.restyled (h : Layout g R) (ht : ∀ s ∈ styles, TableDocument.Targets g s) :
    Layout (g.restyled styles) R := by
  refine h.of_sameShape fun row col => ⟨rfl, fun axis => by cases axis <;> rfl, fun hh => ?_⟩
  have hnone : StyleSpec.last? styles row col = none := by
    by_contra hsome
    obtain ⟨style, hlast⟩ := Option.ne_none_iff_exists'.mp hsome
    have hv := (ht _ (StyleSpec.exists_of_last? hlast)).2
    rw [hh] at hv
    contradiction
  rw [hnone]
  rfl

end Grid

namespace TableDocument

variable {d : TableDocument} {s : Session} {row col : Nat}

/-- The rectangles of the merges. -/
def rectangles (d : TableDocument) : List CellRange := d.merges.map MergeSpec.rectangle

/-- The grid of the texts with the merges laid out on it. -/
def mergedGrid (d : TableDocument) : Grid := d.textGrid.merged d.rectangles

/-- The session that an accepted document gives. -/
def described (d : TableDocument) : Session where
  grid := d.mergedGrid.restyled d.styles
  columns := d.columns ++ List.replicate (d.width - d.columns.length) .default
  dialect := d.dialect
  options := d.options

/-- What the steps of `toSession` ask for. -/
structure Accepted (d : TableDocument) : Prop where
  indexed : ∀ m ∈ d.merges, ∀ axis, m.bound axis ≤ maxIndex
  apart : d.textGrid.Apart d.rectangles
  targets : ∀ style ∈ d.styles, Targets d.mergedGrid style

theorem width_pos : 0 < d.width := Nat.le_max_right _ 1

theorem length_columns_le : d.columns.length ≤ d.width :=
  (Nat.le_max_right _ _).trans (Nat.le_max_left _ 1)

theorem textGrid_layout : d.textGrid.Layout ∅ :=
  .ofTextsIn (Nat.le_max_right _ 1) d.width_pos d.rows

namespace Accepted

theorem layout (h : d.Accepted) :
    d.described.grid.Layout {r | r ∈ d.rectangles ∧ r.isSingle = false} :=
  (h.apart.layout d.textGrid_layout).restyled h.targets

theorem indexed_regions (h : d.Accepted) :
    Grid.Indexed {r | r ∈ d.rectangles ∧ r.isSingle = false} := by
  rintro _ ⟨hr, -⟩ axis
  obtain ⟨m, hm, rfl⟩ := List.mem_map.mp hr
  rw [MergeSpec.last_rectangle]
  exact (Nat.sub_le _ _).trans (h.indexed m hm axis)

theorem validate (h : d.Accepted) : d.described.grid.validate = .ok () := by
  rw [Grid.validate, h.layout.fault?_eq_none h.indexed_regions]

end Accepted

theorem length_described : d.described.columns.length = d.described.grid.cols := by
  have hle := d.length_columns_le
  rw [described, List.length_append, List.length_replicate]
  exact Nat.add_sub_of_le hle

theorem toSession_eq_ok_iff : d.toSession = .ok s ↔ d.Accepted ∧ s = d.described := by
  simp only [toSession, bind_eq_ok, pure_eq_ok, Prod.exists]
  constructor
  · rintro ⟨rs, g, hmerges, g', hstyles, t, ht, rfl⟩
    obtain ⟨hindexed, hapart, heq⟩ := (foldlM_addMerge_eq_ok_iff d.textGrid_layout).mp hmerges
    obtain ⟨rfl, rfl⟩ := Prod.mk.inj heq
    obtain ⟨htargets, rfl⟩ := (foldlM_addStyle_eq_ok_iff Grid.merged_full).mp hstyles
    obtain ⟨-, rfl⟩ := Session.ofParts_eq_ok_iff.mp ht
    exact ⟨⟨hindexed, hapart, htargets⟩, rfl⟩
  · rintro ⟨h, rfl⟩
    exact ⟨_, _, (foldlM_addMerge_eq_ok_iff d.textGrid_layout).mpr ⟨h.indexed, h.apart, rfl⟩,
      _, (foldlM_addStyle_eq_ok_iff Grid.merged_full).mpr ⟨h.targets, rfl⟩,
      _, Session.ofParts_eq_ok_iff.mpr ⟨⟨d.length_described, h.validate⟩, rfl⟩, rfl⟩

/-- The merges fit into the grid without sharing a cell, and the styles name cells that no merge
hides. -/
structure Consistent (d : TableDocument) : Prop where
  representable : ∀ m ∈ d.merges, m.row + max m.rows 1 ≤ maxIndex ∧ m.col + max m.cols 1 ≤ maxIndex
  inside : ∀ m ∈ d.merges, m.row + max m.rows 1 ≤ d.height ∧ m.col + max m.cols 1 ≤ d.width
  apart : d.merges.Pairwise fun m n => ¬∃ row col, m.Covers row col ∧ n.Covers row col
  styled : ∀ s ∈ d.styles, (s.row < d.height ∧ s.col < d.width) ∧
    ∀ m ∈ d.merges, m.Covers s.row s.col → m.row = s.row ∧ m.col = s.col

theorem apart_rectangles_iff : d.textGrid.Apart d.rectangles ↔
    (∀ m ∈ d.merges, m.row + max m.rows 1 ≤ d.height ∧ m.col + max m.cols 1 ≤ d.width) ∧
      d.merges.Pairwise fun m n => ¬∃ row col, m.Covers row col ∧ n.Covers row col := by
  have hinside (m : MergeSpec) : (∀ axis, m.rectangle.last axis < d.textGrid.lineCount axis) ↔
      m.row + max m.rows 1 ≤ d.height ∧ m.col + max m.cols 1 ≤ d.width := by
    rw [Axis.forall_iff .row]
    show m.row + max m.rows 1 - 1 < d.height ∧ m.col + max m.cols 1 - 1 < d.width ↔ _
    omega
  have hapart (m n : MergeSpec) : m.rectangle.intersects n.rectangle = false ↔
      ¬∃ row col, m.Covers row col ∧ n.Covers row col := by
    rw [← MergeSpec.intersects_rectangle, Bool.not_eq_true]
  simp only [← hinside, ← hapart]
  constructor
  · intro h
    exact ⟨List.forall_mem_map.mp h.inside, List.pairwise_map.mp h.apart⟩
  · rintro ⟨hin, happart⟩
    exact ⟨List.forall_mem_map.mpr fun m _ => m.rectangle_ordered, List.forall_mem_map.mpr hin,
      List.pairwise_map.mpr happart⟩

theorem hidden_mergedGrid_iff (h : d.textGrid.Apart d.rectangles) :
    (d.mergedGrid.cellAt row col).hidden = true ↔
      ∃ m ∈ d.merges, m.Covers row col ∧ ¬(m.row = row ∧ m.col = col) := by
  have hstarts (m : MergeSpec) : m.rectangle.startsAt row col = false ↔
      ¬(m.row = row ∧ m.col = col) := by
    rw [← Bool.not_eq_true, CellRange.startsAt_iff]
    rfl
  rw [mergedGrid, h.hidden_merged d.textGrid_layout]
  simp only [rectangles, List.mem_map, exists_exists_and_eq_and, MergeSpec.contains_rectangle,
    hstarts]

theorem accepted_iff : d.Accepted ↔ d.Consistent := by
  have htargets (h : d.textGrid.Apart d.rectangles) (s : StyleSpec) : Targets d.mergedGrid s ↔
      (s.row < d.height ∧ s.col < d.width) ∧
        ∀ m ∈ d.merges, m.Covers s.row s.col → m.row = s.row ∧ m.col = s.col := by
    refine and_congr_right fun _ => ?_
    rw [← Bool.not_eq_true, hidden_mergedGrid_iff h]
    push Not
    rfl
  constructor
  · rintro ⟨hindexed, hapart, hs⟩
    obtain ⟨hinside, hpairwise⟩ := apart_rectangles_iff.mp hapart
    exact ⟨fun m hm => (Axis.forall_iff .row).mp (hindexed m hm), hinside, hpairwise,
      fun s hmem => (htargets hapart s).mp (hs s hmem)⟩
  · rintro ⟨hrepresentable, hinside, hpairwise, hs⟩
    have hapart := apart_rectangles_iff.mpr ⟨hinside, hpairwise⟩
    exact ⟨fun m hm => (Axis.forall_iff .row).mpr (hrepresentable m hm), hapart,
      fun s hmem => (htargets hapart s).mpr (hs s hmem)⟩

/-- The session is the table of the document. -/
structure Describes (d : TableDocument) (s : Session) : Prop where
  rows : s.grid.rows = d.height
  cols : s.grid.cols = d.width
  validate : s.grid.validate = .ok ()
  regions : ∀ r, r ∈ s.grid.regions ↔ ∃ m ∈ d.merges, (1 < m.rows ∨ 1 < m.cols) ∧
    r = ⟨m.row, m.col, m.row + max m.rows 1 - 1, m.col + max m.cols 1 - 1⟩
  hidden : ∀ row col, (s.grid.cellAt row col).hidden = true ↔
    ∃ m ∈ d.merges, m.Covers row col ∧ ¬(m.row = row ∧ m.col = col)
  text : ∀ row < d.height, ∀ col < d.width, (s.grid.cellAt row col).hidden = false →
    (s.grid.cellAt row col).text = ((d.rows[row]?.getD [])[col]?).getD ""
  style : ∀ row < d.height, ∀ col < d.width, (s.grid.cellAt row col).hidden = false →
    (s.grid.cellAt row col).style = (StyleSpec.last? d.styles row col).getD .unset
  columns : s.columns = d.columns ++ List.replicate (d.width - d.columns.length) .default
  dialect : s.dialect = d.dialect
  options : s.options = d.options
  selection : s.selection = {}

theorem content_textGrid (hr : row < d.height) (hc : col < d.width) :
    (d.textGrid.cellAt row col).content = ⟨((d.rows[row]?.getD [])[col]?).getD "", .unset⟩ := by
  rw [textGrid, Grid.ofTextsIn_eq_tabulate, Grid.cellAt_tabulate hr hc]
  rfl

theorem Accepted.describes (h : d.Accepted) : d.Describes d.described := by
  have hvisible {row col : Nat} (hr : row < d.height) (hc : col < d.width)
      (hv : (d.described.grid.cellAt row col).hidden = false) :
      (d.mergedGrid.cellAt row col).content =
        ⟨((d.rows[row]?.getD [])[col]?).getD "", .unset⟩ := by
    rw [described, Grid.hidden_restyled] at hv
    rw [mergedGrid, h.apart.content_merged hv, content_textGrid hr hc]
  have hcell {row col : Nat} (hr : row < d.height) (hc : col < d.width) :
      d.described.grid.cellAt row col =
        { d.mergedGrid.cellAt row col with
          style := (StyleSpec.last? d.styles row col).getD (d.mergedGrid.cellAt row col).style } :=
    Grid.cellAt_restyled hr hc
  constructor
  case validate => exact h.validate
  case regions =>
    intro r
    rw [h.layout.mem_regions h.indexed_regions]
    constructor
    · rintro ⟨hr, hs⟩
      obtain ⟨m, hm, rfl⟩ := List.mem_map.mp hr
      exact ⟨m, hm, MergeSpec.isSingle_rectangle.mp hs, rfl⟩
    · rintro ⟨m, hm, hs, rfl⟩
      exact ⟨List.mem_map_of_mem hm, MergeSpec.isSingle_rectangle.mpr hs⟩
  case hidden =>
    intro row col
    rw [described, Grid.hidden_restyled, hidden_mergedGrid_iff h.apart]
  case text =>
    intro row hr col hc hv
    exact (congrArg Cell.text (hcell hr hc)).trans (congrArg CellContent.text (hvisible hr hc hv))
  case style =>
    intro row hr col hc hv
    have hunset : (d.mergedGrid.cellAt row col).style = .unset :=
      congrArg CellContent.style (hvisible hr hc hv)
    rw [hcell hr hc, hunset]
  all_goals rfl

/-- The merges may stand in any order. -/
theorem Accepted.perm {merges : List MergeSpec} (h : d.Accepted) (hp : merges.Perm d.merges) :
    Accepted { d with merges } ∧ described { d with merges } = d.described := by
  have hrectangles : d.rectangles.Perm (rectangles { d with merges }) := (hp.map _).symm
  have hmerged : mergedGrid { d with merges } = d.mergedGrid :=
    (h.apart.merged_perm hrectangles).symm
  constructor
  · refine ⟨fun m hm => h.indexed m (hp.mem_iff.mp hm), h.apart.perm hrectangles, ?_⟩
    rw [hmerged]
    exact h.targets
  · rw [described, hmerged]
    rfl

theorem toSession_perm {merges : List MergeSpec} (hp : merges.Perm d.merges)
    (h : d.toSession = .ok s) : toSession { d with merges } = .ok s := by
  obtain ⟨haccepted, rfl⟩ := toSession_eq_ok_iff.mp h
  obtain ⟨haccepted', hsame⟩ := haccepted.perm hp
  exact toSession_eq_ok_iff.mpr ⟨haccepted', hsame.symm⟩

/-- Exactly the consistent documents are accepted, the session is the table that they describe,
and the order of their merges does not matter. -/
theorem toSession_accepts (d : TableDocument) :
    ((∃ s, d.toSession = .ok s) ↔ d.Consistent) ∧
      (∀ s, d.toSession = .ok s → d.Describes s) ∧
        ∀ merges : List MergeSpec, merges.Perm d.merges →
          ∀ s, { d with merges }.toSession = .ok s ↔ d.toSession = .ok s := by
  refine ⟨?_, ?_, fun merges hp s => ⟨?_, toSession_perm hp⟩⟩
  · simp only [toSession_eq_ok_iff, accepted_iff, exists_and_left, exists_eq, and_true]
  · intro s hs
    obtain ⟨haccepted, rfl⟩ := toSession_eq_ok_iff.mp hs
    exact haccepted.describes
  · exact toSession_perm (d := { d with merges }) hp.symm

theorem toSession_accepts_header :
    let d : TableDocument :=
      { rows := [["a", "b", "c"], ["d"]], merges := [⟨0, 1, 2, 2⟩, ⟨1, 0, 0, 1⟩],
        styles := [⟨0, 1, { bold := some true }⟩] }
    d.Consistent ∧ ∃ s, d.toSession = .ok s ∧ d.Describes s ∧
      { d with merges := d.merges.reverse }.toSession = .ok s := by
  intro d
  obtain ⟨haccepts, hdescribes, hperm⟩ := toSession_accepts d
  have hs : d.toSession = .ok d.described := by decide +kernel
  exact ⟨haccepts.mp ⟨_, hs⟩, _, hs, hdescribes _ hs, (hperm _ (List.reverse_perm _) _).mpr hs⟩

end TableDocument
end LatexTable
