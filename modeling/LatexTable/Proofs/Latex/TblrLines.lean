import LatexTable.Proofs.Grid.Agreement
import LatexTable.Proofs.Latex.Definitions
import LatexTable.Proofs.Latex.EntryReader
/-!
The lines of a table with a header: definitions of colours, the entries of the header, which tell
the regions, and the texts of a row between their separators.
-/
namespace LatexTable.Latex
open Text

variable {g g' : Grid} {R S : Set CellRange} {c : Cell} {line entry : String}
  {pending pending' : List Char}

section Definitions

/-- A line that defines a colour. -/
def Defines (l : List Char) : Prop := ∃ tail, l = '\\' :: 'd' :: tail

theorem defines_definition {color : Color} (hword : '\n' ∉ color.word.toList)
    (h : color.definition? = some line) : Defines line.toList ∧ '\n' ∉ line.toList := by
  obtain ⟨digits, rfl, rfl⟩ := definition?_eq_some.mp h
  rw [Color.word] at hword
  constructor
  · simp [Defines, definition]
  · simp [definition, braced, Color.keyName, hword]

theorem defines_of_mem (hw : g.Writable) (h : line ∈ definitions g) :
    Defines line.toList ∧ '\n' ∉ line.toList := by
  obtain ⟨color, ⟨row, -, col, -, -, hcolor⟩, hline⟩ := mem_definitions.mp h
  rcases hcolor with hcolor | hcolor
  · exact defines_definition ((hw row col).notMem_foreground hcolor (by decide)) hline
  · exact defines_definition ((hw row col).notMem_background hcolor (by decide)) hline

end Definitions

section Header

/-- The lines of the header from behind a pending piece on, a comma at the end of each but the
last. -/
def entryLines : List Char → List (List Char) → List (List Char)
  | pending, [] => [pending]
  | pending, e :: es => (pending ++ [',']) :: entryLines (' ' :: ' ' :: e) es

theorem lines_entryLines (pending : List Char) (es : List (List Char)) (rest : List Char) :
    lines (entryLines pending es) ++ rest =
      pending ++ (es.flatMap (",\n  ".toList ++ ·) ++ '\n' :: rest) := by
  induction es generalizing pending with
  | nil => simp [entryLines]
  | cons e es ih => simp [entryLines, ih]

theorem entryLines_inj {es es' : List (List Char)}
    (h : entryLines pending es = entryLines pending' es') : pending = pending' ∧ es = es' := by
  induction es generalizing es' pending pending' with
  | nil =>
    cases es' with
    | nil => exact ⟨(List.cons.inj h).1, rfl⟩
    | cons e' es' => cases es' <;> cases (List.cons.inj h).2
  | cons e es ih =>
    cases es' with
    | nil => cases es <;> cases (List.cons.inj h).2
    | cons e' es' =>
      obtain ⟨hhead, htail⟩ := List.cons.inj h
      obtain ⟨he, rfl⟩ := ih htail
      obtain rfl : e = e' := by simpa using he
      exact ⟨List.append_cancel_right hhead, rfl⟩

/-- No line of the entries looks like the end of the header. -/
theorem mem_entryLines {es : List (List Char)} (hpending : pending.head? ≠ some '\x7d')
    (hline : '\n' ∉ pending) (hes : ∀ e ∈ es, '\n' ∉ e) :
    ∀ l ∈ entryLines pending es, l.head? ≠ some '\x7d' ∧ '\n' ∉ l := by
  induction es generalizing pending with
  | nil =>
    intro l hl
    rw [List.mem_singleton.mp hl]
    exact ⟨hpending, hline⟩
  | cons e es ih =>
    have he := hes e List.mem_cons_self
    have hindented : (' ' :: ' ' :: e).head? ≠ some '\x7d' ∧ '\n' ∉ ' ' :: ' ' :: e := by simp [he]
    have htail := ih hindented.1 hindented.2 fun d hd => hes d (List.mem_cons_of_mem _ hd)
    intro l hl
    rcases List.mem_cons.mp hl with rfl | hl
    · refine ⟨?_, by simp [hline]⟩
      cases pending with
      | nil => simp
      | cons d ds => simpa using hpending
    · exact htail l hl

theorem mem_cellEntries : entry ∈ cellEntries g ↔
    ∃ row col, (row < g.rows ∧ col < g.cols) ∧
      cellEntry? (g.cellAt row col) row col = some entry := by
  simp [cellEntries, List.mem_filterMap, Grid.mem_places, Prod.exists]

/-- The entries tell the regions. -/
theorem subset_of_cellEntries (h : g.Layout R) (h' : g'.Layout S) (hw : g.Writable)
    (hw' : g'.Writable) (heq : cellEntries g = cellEntries g') : R ⊆ S := by
  intro r hr
  have hmaster := h.isMaster_iff.mpr ⟨r, hr, r.startsAt_first⟩
  obtain ⟨entry, he⟩ := exists_cellEntry r.minRow r.minCol hmaster
  have hmem : entry ∈ cellEntries g :=
    mem_cellEntries.mpr ⟨_, _, h.first_lt hr, he⟩
  rw [heq] at hmem
  obtain ⟨row, col, -, he'⟩ := mem_cellEntries.mp hmem
  have hread := (read_cellEntry (hw _ _).parsedColors he).symm.trans
    (read_cellEntry (hw' _ _).parsedColors he')
  obtain ⟨rfl, rfl, hspans⟩ := entry_inj (h.span_pos _ _) (h'.span_pos _ _) (Option.some.inj hread)
  exact h.mem_of_same_spans h' hr (cellEntry_eq_some he').1 hspans

end Header

section Body

theorem notMem_bodyText (h : c.Writable) :
    '&' ∉ (bodyText c).toList ∧ '\n' ∉ (bodyText c).toList := by
  unfold bodyText
  split
  · simp
  · rw [toList_trim]
    exact ⟨h.notMem_text (by decide), h.notMem_text (by decide)⟩

theorem toList_bodyLine (cells : List Cell) : (bodyLine cells).toList =
    "  ".toList ++ (" & ".toList.intercalate ((cells.map bodyText).map String.toList) ++
      " \\\\".toList) := by
  simp [bodyLine]

theorem notMem_bodyLine {cells : List Cell} (h : ∀ c ∈ cells, c.Writable) :
    '\n' ∉ (bodyLine cells).toList := by
  have htexts : '\n' ∉ " & ".toList.intercalate ((cells.map bodyText).map String.toList) := by
    apply notMem_intercalate (by decide)
    simp only [List.map_map, List.mem_map, Function.comp_apply]
    rintro _ ⟨c, hc, rfl⟩
    exact (notMem_bodyText (h c hc)).2
  rw [toList_bodyLine]
  simp only [List.mem_append, not_or]
  exact ⟨by decide, htexts, by decide⟩

theorem notMem_bodyLines (hw : g.Writable) :
    ∀ l ∈ (g.rowList.map bodyLine).map String.toList, '\n' ∉ l := by
  simp only [Grid.rowList, List.map_map, List.mem_map, Function.comp_apply]
  rintro _ ⟨row, -, rfl⟩
  apply notMem_bodyLine
  intro c hc
  obtain ⟨col, -, rfl⟩ := List.mem_map.mp hc
  exact hw row col

/-- A row of texts is read back between its separators. -/
theorem bodyLine_inj {cells cells' : List Cell} (h : ∀ c ∈ cells, c.Writable)
    (h' : ∀ c ∈ cells', c.Writable) (hne : cells ≠ []) (hne' : cells' ≠ [])
    (heq : bodyLine cells = bodyLine cells') : cells.map bodyText = cells'.map bodyText := by
  have hfree {cells : List Cell} (h : ∀ c ∈ cells, c.Writable) :
      ∀ p ∈ (cells.map bodyText).map String.toList, '&' ∉ p := by
    simp only [List.map_map, List.mem_map, Function.comp_apply]
    rintro _ ⟨c, hc, rfl⟩
    exact (notMem_bodyText (h c hc)).1
  have hchars := congrArg String.toList heq
  rw [toList_bodyLine, toList_bodyLine] at hchars
  have htexts := List.append_cancel_right (List.append_cancel_left hchars)
  have hpieces := intercalate_inj (a := [' ']) (b := [' ']) (c := '&') (by decide)
    (by simpa using hne) (by simpa using hne') (hfree h) (hfree h') htexts
  exact map_toList_injective hpieces

/-- The lines of texts tell the number of rows and what stands for every cell. -/
theorem bodyText_inj (hw : g.Writable) (hw' : g'.Writable) (hpos : 0 < g.cols)
    (hcols : g.cols = g'.cols) (heq : g.rowList.map bodyLine = g'.rowList.map bodyLine) :
    g.rows = g'.rows ∧ ∀ row < g.rows, ∀ col < g.cols,
      bodyText (g.cellAt row col) = bodyText (g'.cellAt row col) := by
  have hrows : g.rows = g'.rows := by simpa [Grid.rowList] using congrArg List.length heq
  have hcells {g : Grid} (hw : g.Writable) (row : Nat) :
      ∀ c ∈ (List.range g.cols).map (g.cellAt row), c.Writable := by
    intro c hc
    obtain ⟨col, -, rfl⟩ := List.mem_map.mp hc
    exact hw row col
  have hne {g : Grid} (hpos : 0 < g.cols) (row : Nat) :
      (List.range g.cols).map (g.cellAt row) ≠ [] := by
    simpa using hpos.ne'
  rw [Grid.rowList, Grid.rowList, List.map_map, List.map_map, ← hrows, List.map_inj_left] at heq
  refine ⟨hrows, fun row hr col hc => ?_⟩
  have hline := bodyLine_inj (hcells hw row) (hcells hw' row) (hne hpos row)
    (hne (hcols ▸ hpos) row) (heq row (List.mem_range.mpr hr))
  rw [← hcols, List.map_map, List.map_map, List.map_inj_left] at hline
  exact hline col (List.mem_range.mpr hc)

end Body
end LatexTable.Latex
