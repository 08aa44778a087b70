import LatexTable.Proofs.Session.Document
/-!
Runs of a session. Consistency holds at the start and is kept by every call, so that the calls that
work on the selection cannot fail and the parts of a session always make a session again.
-/
namespace LatexTable
open Result InPlace

namespace Session

/-- The sessions that the constructors give. -/
inductive Start : Session → Prop where
  | blank (rows cols : Nat) : (Grid.blank rows cols).Fits → Start (Session.blank rows cols)
  | ofParts {g : Grid} {columns : ColumnSpecs} {s : Session} :
      g.Reachable → Session.ofParts g columns = .ok s → Start s
  | ofDocument {d : TableDocument} {s : Session} :
      d.textGrid.Fits → d.toSession = .ok s → Start s

/-- The runs from a session in which the number of cells stays an index. -/
inductive Run (s : Session) : Session → Prop where
  | nil : Run s s
  | edit {t : Session} (e : Edit) : Run s t → (t.after e).grid.Fits → Run s (t.after e)

/-- What holds of every session, in terms of the session alone. -/
structure Sound (s : Session) : Prop where
  columns : s.columns.length = s.grid.cols
  start_inside : s.selection.startRow < s.grid.rows ∧ s.selection.startCol < s.grid.cols
  end_inside : s.selection.endRow < s.grid.rows ∧ s.selection.endCol < s.grid.cols
  encoded : s.grid.Encoded
  validate : s.grid.validate = .ok ()
  merge : ∃ t, s.mergeSelection = .ok t
  split : ∃ t n, s.splitSelection = .ok (t, n)
  style : ∀ command, ∃ t n, s.applyStyle command = .ok (t, n)
  parts : ∃ t, Session.ofParts s.parts.1 s.parts.2 = .ok t

variable {s t : Session} {g : Grid} {columns : ColumnSpecs}

theorem ofParts_eq_ok_iff : Session.ofParts g columns = .ok s ↔
    (columns.length = g.cols ∧ g.validate = .ok ()) ∧ s = { grid := g, columns } := by
  unfold Session.ofParts
  split
  next hne => simp [hne]
  next heq => simp only [not_not.mp heq, true_and, check_bind_eq_ok, pure_eq_ok]

theorem blank_consistent (rows cols : Nat) (hf : (Grid.blank rows cols).Fits) :
    Consistent (blank rows cols) := by
  have hg : (Grid.blank rows cols).Reachable := .blank rows cols hf
  have hr := hg.layout.pos .row
  have hc := hg.layout.pos .column
  exact ⟨hg, List.length_replicate, ⟨hr, hc⟩, hr, hc⟩

theorem ofParts_consistent (hg : g.Reachable) (h : Session.ofParts g columns = .ok s) :
    Consistent s := by
  obtain ⟨⟨hlength, -⟩, rfl⟩ := ofParts_eq_ok_iff.mp h
  have hr := hg.layout.pos .row
  have hc := hg.layout.pos .column
  exact ⟨hg, hlength, ⟨hr, hc⟩, hr, hc⟩

theorem Start.consistent (h : Start s) : Consistent s := by
  cases h with
  | blank rows cols hf => exact blank_consistent rows cols hf
  | ofParts hg hs => exact ofParts_consistent hg hs
  | ofDocument hf hd =>
    obtain ⟨g, columns, t, hg, ht, rfl⟩ := TableDocument.toSession_eq_ok hd hf
    have h := ofParts_consistent hg ht
    exact ⟨h.grid, h.columns, h.selection⟩

theorem Consistent.run (h : Consistent s) (hrun : Run s t) : Consistent t := by
  induction hrun with
  | nil => exact h
  | edit e _ hf ih => exact ih.after e hf

theorem Consistent.exists_merge (h : Consistent s) : ∃ t, s.mergeSelection = .ok t := by
  have hmerge := (Grid.merge_eq_ok_iff Selection.range_ordered).mpr
    ⟨h.selection.range_last_lt, rfl⟩
  exact ⟨_, mergeSelection_eq_ok.mpr ⟨_, hmerge, rfl⟩⟩

theorem Consistent.exists_split (h : Consistent s) : ∃ t n, s.splitSelection = .ok (t, n) := by
  have hsplit := (Grid.split_eq_ok_iff Selection.range_ordered).mpr
    ⟨h.selection.range_last_lt, rfl, rfl⟩
  exact ⟨_, _, splitSelection_eq_ok.mpr ⟨_, hsplit, rfl⟩⟩

theorem Consistent.exists_style (h : Consistent s) (command : StyleCommand) :
    ∃ t n, s.applyStyle command = .ok (t, n) := by
  obtain ⟨g, n, hstyle⟩ := Grid.exists_applyStyle command h.selection.1 h.checkRange
  exact ⟨_, n, applyStyle_eq_ok.mpr ⟨g, hstyle, rfl⟩⟩

theorem Consistent.sound (h : Consistent s) : Sound s where
  columns := h.columns
  start_inside := h.selection.1
  end_inside := h.selection.2
  encoded := h.grid.layout.encoded h.grid.fits
  validate := h.grid.layout.validate h.grid.fits
  merge := h.exists_merge
  split := h.exists_split
  style := h.exists_style
  parts := ⟨_, ofParts_eq_ok_iff.mpr ⟨⟨h.columns, h.grid.layout.validate h.grid.fits⟩, rfl⟩⟩

section Registry

variable {α : Type} {P : ColumnSpecs → Prop}

theorem keeps_onGrid (op : Grid → TableResult α × Grid) :
    Keeps (fun s : Session => P s.columns) (onGrid op) := fun _ h => h

theorem keeps_onColumns {op : ColumnSpecs → TableResult Unit × ColumnSpecs}
    (hop : ∀ specs, P specs → P (op specs).2) :
    Keeps (fun s : Session => P s.columns) (onColumns op) := fun s h => hop s.columns h

theorem keeps_clampSelection :
    Keeps (fun s : Session => P s.columns) (modify clampSelection) := fun _ h => h

end Registry

/-- A call stores no width that it does not accept. -/
theorem after_accepted (h : s.columns.Accepted) (e : Edit) : (s.after e).columns.Accepted := by
  cases e with
  | beginSelection row col =>
    refine beginSelection_atomic.cases (P := fun t => t.columns.Accepted) h fun t ht => ?_
    obtain ⟨-, rfl⟩ := beginSelection_eq_ok.mp ht
    exact h
  | insertCol pos =>
    have hcolumns : Keeps (fun s : Session => s.columns.Accepted)
        (onColumns (·.insertDefaultInPlace pos)) :=
      keeps_onColumns fun _ => ColumnSpecs.Accepted.insertDefaultInPlace
    exact (keeps_onGrid _).bind (fun _ => hcolumns) s h
  | deleteCol col =>
    have hcolumns : Keeps (fun s : Session => s.columns.Accepted)
        (onColumns (·.removeInPlace col)) :=
      keeps_onColumns fun _ => ColumnSpecs.Accepted.removeInPlace
    exact (keeps_onGrid _).bind (fun _ => hcolumns.bind fun _ => keeps_clampSelection) s h
  | deleteRow row => exact (keeps_onGrid _).bind (fun _ => keeps_clampSelection) s h
  | setKind col kind => exact h.setKindInPlace
  | setWidth col width => exact h.setWidthInPlace
  | addCol => exact h.pushDefault
  | insertRow pos | mergeSelection | splitSelection | setText row col text | applyStyle command
    | extendSelection row col | endSelection | selectAll | addRow | setDialect dialect
    | setOptions options => exact h

theorem run_accepted (h : s.columns.Accepted) (hrun : Run s t) : t.columns.Accepted := by
  induction hrun with
  | nil => exact h
  | edit e _ _ ih => exact after_accepted ih e

/-- Along every run the session stays sound, and a run from an empty table stores only widths that
have been accepted. -/
theorem run_sound (hs : Start s) (hrun : Run s t) :
    Sound t ∧ ((∃ rows cols, s = blank rows cols) → t.columns.Accepted) := by
  constructor
  · exact (hs.consistent.run hrun).sound
  · rintro ⟨rows, cols, rfl⟩
    exact run_accepted (ColumnSpecs.blank_accepted _) hrun

theorem run_sound_dragging :
    let s := blank 3 3
    let t := (((s.after (.beginSelection 2 2)).after (.deleteRow 1)).after
      (.extendSelection 9 0)).after (.insertCol 3)
    Sound t ∧ ((∃ rows cols, s = blank rows cols) → t.columns.Accepted) := by
  refine run_sound (.blank 3 3 ?_)
    (.edit _ (.edit _ (.edit _ (.edit _ .nil ?_) ?_) ?_) ?_) <;> decide

end Session
end LatexTable
