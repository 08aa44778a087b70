import LatexTable.Latex.Tabular
import LatexTable.Proofs.Latex.RowTiling
import LatexTable.Proofs.Latex.UnitReader
/-!
The lines of a tabular body: no unit holds a separator or a line end, so a row is one line, and only
the lines of rows are indented.
-/
namespace LatexTable.Latex
open Text

/-- The text holds neither the separator of units nor a line end. -/
def Unbroken (s : String) : Prop := '&' ∉ s.toList ∧ '\n' ∉ s.toList

section Unbroken

variable {s s' : String} {c : Cell} {color : Color} {t : TabularColumns} {u : RowUnit}

@[simp] theorem unbroken_append : Unbroken (s ++ s') ↔ Unbroken s ∧ Unbroken s' := by
  simp only [Unbroken, String.toList_append, List.mem_append, not_or]
  tauto

@[simp] theorem unbroken_braced : Unbroken (braced s) ↔ Unbroken s := by
  simp [Unbroken, braced]

theorem unbroken_toString (n : Nat) : Unbroken (toString n) :=
  ⟨notMem_digits n (by decide), notMem_digits n (by decide)⟩

theorem unbroken_arguments (h : Unbroken color.word) : Unbroken color.arguments := by
  cases color <;> simpa [Color.arguments, Color.word, Unbroken] using h

theorem unbroken_fill (h : c.Writable) : Unbroken (c.fill?.getD "") := by
  unfold Cell.fill?
  cases hb : c.style.background with
  | none => simp [Unbroken]
  | some color =>
    have hword : Unbroken color.word :=
      ⟨h.notMem_background hb (by decide), h.notMem_background hb (by decide)⟩
    have harguments := unbroken_arguments hword
    simpa [Unbroken] using harguments

theorem unbroken_emphasized (h : c.Writable) : Unbroken c.emphasized := by
  unfold Cell.emphasized
  split
  next => simp [Unbroken]
  next text htext =>
    obtain ⟨rfl, -⟩ := nonBlank?_eq_some.mp htext
    have htrim : Unbroken (trim c.text) := by
      rw [Unbroken, toList_trim]
      exact ⟨h.notMem_text (by decide), h.notMem_text (by decide)⟩
    have hwrap (b : Bool) (command : String) {s : String} (hcommand : Unbroken command)
        (hs : Unbroken s) : Unbroken (if b then command ++ braced s else s) := by
      cases b
      · exact hs
      · simpa using ⟨hcommand, hs⟩
    have hinner := hwrap c.style.isBold "\\textbf" (by simp [Unbroken])
      (hwrap c.style.isItalic "\\textit" (by simp [Unbroken]) htrim)
    dsimp only
    split
    next => exact hinner
    next color hf =>
      have hword : Unbroken color.word :=
        ⟨h.notMem_foreground hf (by decide), h.notMem_foreground hf (by decide)⟩
      simp only [unbroken_append, unbroken_braced]
      exact ⟨⟨by simp [Unbroken], unbroken_arguments hword⟩, hinner⟩

theorem unbroken_body (h : c.Writable) : Unbroken c.body := by
  have hemphasized := unbroken_emphasized h
  have hspanned : Unbroken (spanned c) := by
    unfold spanned
    split
    · have hposition : Unbroken ((c.style.valign.map fun v =>
          bracketed v.multirowLetter.toString).getD "") := by
        cases c.style.valign with
        | none => simp [Unbroken]
        | some v => cases v <;> simp [Unbroken, VAlign.multirowLetter, bracketed]
      simp only [unbroken_append, unbroken_braced]
      exact ⟨⟨⟨⟨by simp [Unbroken], hposition⟩, unbroken_toString _⟩, by simp [Unbroken]⟩,
        hemphasized⟩
    · exact hemphasized
  have hfill := unbroken_fill h
  unfold Unbroken at hspanned hfill ⊢
  rw [toList_body]
  cases hb : c.style.background with
  | none => simpa using hspanned
  | some color =>
    simp only [Cell.fill?, hb, Option.map_some, Option.getD_some] at hfill
    simp at hfill hspanned ⊢
    tauto

theorem unbroken_unitText (h : u.cell.Writable) : Unbroken (t.unitText u) := by
  have hcontent : Unbroken u.content := by
    cases u with
    | visible col c => exact unbroken_body h
    | continuation col owner => exact unbroken_fill h
  rcases Grid.unitText_cases t u with ⟨-, htext⟩ | ⟨hown, htext⟩
  · rwa [htext]
  · have hspec : Unbroken (t.unitSpec u.col u.width u.cell.style) :=
      ⟨fun hmem => by simpa using mem_unitSpec hown _ hmem,
        fun hmem => by simpa using mem_unitSpec hown _ hmem⟩
    rw [htext]
    simp only [unbroken_append, unbroken_braced]
    exact ⟨⟨⟨by simp [Unbroken], unbroken_toString _⟩, hspec⟩, hcontent⟩

end Unbroken

section Lines

variable {l : HorizontalLine} {g : Grid} {row cols : Nat} {style : LineStyle} {s : String}

/-- A line of source that is not indented. -/
def Flush (s : String) : Prop := s.toList.head? = some '\\' ∧ '\n' ∉ s.toList

theorem flush_latex (l : HorizontalLine) (cols : Nat) : Flush (l.latex cols) := by
  have hbounds (a b : Nat) : '\n' ∉ (braced s!"{a}-{b}").toList := by
    have h : Unbroken (braced (toString a ++ "-" ++ toString b)) := by
      simp only [unbroken_braced, unbroken_append]
      exact ⟨⟨unbroken_toString a, by simp [Unbroken]⟩, unbroken_toString b⟩
    exact h.2
  unfold HorizontalLine.latex
  split
  case h_4 a b _ _ | h_6 a b _ _ =>
    have h := hbounds a b
    constructor
    · simp
    · simp only [String.toList_append, List.mem_append, not_or]
      exact ⟨by simp, h⟩
  all_goals exact ⟨by simp, by simp⟩

theorem flush_boundaryText (h : g.boundaryText? row style = some s) : Flush s := by
  unfold Grid.boundaryText? at h
  dsimp only at h
  split at h
  next => cases h
  next hne =>
    obtain rfl := Option.some.inj h
    unfold Flush
    rw [String.toList_intercalate, List.map_map]
    cases hlines : g.boundaryLines row style with
    | nil => simp [hlines] at hne
    | cons l ls =>
      have hl := flush_latex l g.cols
      constructor
      · obtain ⟨ds, hds⟩ := List.head?_eq_some_iff.mp hl.1
        cases ls <;> simp [hds]
      · apply notMem_intercalate (by simp)
        intro p hp
        obtain ⟨m, -, rfl⟩ := List.mem_map.mp hp
        exact (flush_latex m g.cols).2

end Lines

section Rows

variable {g g' : Grid} {R S : Set CellRange} {t : TabularColumns} {row : Nat} {s : String}

theorem exists_cellAt_of_unit (h : g.Layout R) (hf : g.Fits) (hr : row < g.rows) {u : RowUnit}
    (hu : u ∈ g.rowUnits row) : ∃ i j, u.cell = g.cellAt i j := by
  rcases (h.mem_rowUnits_iff hf hr).mp hu with hu | hu
  · obtain ⟨col, -, rfl⟩ := List.mem_map.mp hu
    exact ⟨row, col, rfl⟩
  · obtain ⟨r, -, rfl⟩ := List.mem_map.mp hu
    exact ⟨r.minRow, r.minCol, rfl⟩

theorem unbroken_units (h : g.Layout R) (hf : g.Fits) (hw : g.Writable) (hr : row < g.rows)
    (hs : s ∈ (g.rowUnits row).map t.unitText) : Unbroken s := by
  obtain ⟨u, hu, rfl⟩ := List.mem_map.mp hs
  obtain ⟨i, j, hcell⟩ := exists_cellAt_of_unit h hf hr hu
  exact unbroken_unitText (hcell ▸ hw i j)

theorem notMem_rowLine (h : g.Layout R) (hf : g.Fits) (hw : g.Writable) (hr : row < g.rows) :
    '\n' ∉ (rowLine t g row).toList := by
  have hrow : '\n' ∉ (t.rowText g row).toList := by
    rw [TabularColumns.rowText, String.toList_intercalate]
    apply notMem_intercalate (by simp)
    intro p hp
    obtain ⟨s, hs, rfl⟩ := List.mem_map.mp hp
    exact (unbroken_units h hf hw hr hs).2
  simpa [rowLine] using hrow

/-- A row is read back as its units. -/
theorem rowLine_inj (h : g.Layout R) (h' : g'.Layout S) (hf : g.Fits) (hf' : g'.Fits)
    (hw : g.Writable) (hw' : g'.Writable) (hr : row < g.rows) (hr' : row < g'.rows)
    (heq : rowLine t g row = rowLine t g' row) :
    (g.rowUnits row).map t.unitText = (g'.rowUnits row).map t.unitText := by
  have hne {g : Grid} {R : Set CellRange} (h : g.Layout R) (hf : g.Fits) (hr : row < g.rows) :
      ((g.rowUnits row).map t.unitText).map String.toList ≠ [] := by
    intro hnil
    simp only [List.map_eq_nil_iff] at hnil
    have hrange := h.flatMap_rowUnits hf hr
    rw [hnil, List.flatMap_nil, eq_comm, List.range_eq_nil] at hrange
    have hpos := h.pos .column
    exact hpos.ne' hrange
  have hfree {g : Grid} {R : Set CellRange} (h : g.Layout R) (hf : g.Fits) (hw : g.Writable)
      (hr : row < g.rows) : ∀ p ∈ ((g.rowUnits row).map t.unitText).map String.toList, '&' ∉ p := by
    intro p hp
    obtain ⟨s, hs, rfl⟩ := List.mem_map.mp hp
    exact (unbroken_units h hf hw hr hs).1
  have htext : (t.rowText g row).toList = (t.rowText g' row).toList := by
    have hline := congrArg String.toList heq
    simpa [rowLine] using hline
  rw [TabularColumns.rowText, TabularColumns.rowText, String.toList_intercalate,
    String.toList_intercalate] at htext
  have hunits := intercalate_inj (a := [' ']) (b := [' ']) (c := '&') (by decide) (hne h hf hr)
    (hne h' hf' hr') (hfree h hf hw hr) (hfree h' hf' hw' hr') htext
  exact map_toList_injective hunits

/-- The lines that are indented. -/
def indented (ls : List String) : List String := ls.filter fun s => s.toList.head? = some ' '

theorem indented_append (ls ls' : List String) :
    indented (ls ++ ls') = indented ls ++ indented ls' := List.filter_append ..

theorem indented_flush {ls : List String} (h : ∀ s ∈ ls, Flush s) : indented ls = [] := by
  rw [indented, List.filter_eq_nil_iff]
  intro s hs
  simp [(h s hs).1]

/-- The lines between the rows can be told from the rows. -/
theorem indented_rows (t : TabularColumns) (g : Grid) {below : Nat → List String}
    (hbelow : ∀ row, ∀ s ∈ below row, Flush s) (n : Nat) :
    indented ((List.range n).flatMap fun row => rowLine t g row :: below row) =
      (List.range n).map (rowLine t g) := by
  have hstep (row : Nat) : indented (rowLine t g row :: below row) = [rowLine t g row] := by
    have hhead : (rowLine t g row).toList.head? = some ' ' := by simp [rowLine]
    rw [← List.singleton_append, indented_append, indented_flush (hbelow row), List.append_nil]
    simp [indented, hhead]
  induction n with
  | zero => rfl
  | succ n ih =>
    rw [List.range_succ, List.flatMap_append, indented_append, ih, List.map_append,
      List.flatMap_singleton, hstep, List.map_singleton]

end Rows
end LatexTable.Latex
