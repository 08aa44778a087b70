import LatexTable.Proofs.Column.Resolve
import LatexTable.Proofs.Latex.RowComparison
import LatexTable.Proofs.Latex.TabularLines
/-!
Reading a table in the tabular grammar: the number of columns from the specification, then the lines
of the body, and from the rows among them the regions and texts.
-/
namespace LatexTable.Latex
open Text

variable {g g' : Grid} {R S : Set CellRange} {specs : ColumnSpecs} {dialect : Dialect}
  {o : TableOptions} {m n : Nat} {rest rest' : List Char} {body body' : List String}

/-- The specification of the table tells the number of columns. -/
theorem spec_inj (verticalRules : Bool)
    (h : (TabularColumns.spec ⟨specs.resolve dialect m, verticalRules⟩).toList ++ '\x7d' :: rest =
      (TabularColumns.spec ⟨specs.resolve dialect n, verticalRules⟩).toList ++ '\x7d' :: rest') :
    m = n ∧ rest = rest' := by
  cases verticalRules with
  | true =>
    apply ColumnSpecs.resolve_inj "|"
    simpa [TabularColumns.spec] using h
  | false =>
    apply ColumnSpecs.resolve_inj ""
    simpa [TabularColumns.spec] using h

/-- The lines behind the body. -/
def tabularEnd (o : TableOptions) : List Char :=
  lines ((ending (tabularEnvironment o) :: o.closingLines).map String.toList)

/-- A trimmed table keeps its body and the lines before it. -/
theorem toList_tabular (t : TabularColumns) :
    (tabular o t body).toList = lines (o.openingLines.map String.toList) ++
      ((beginning (tabularEnvironment o) ++ "\x7b").toList ++ (t.spec.toList ++ '\x7d' :: '\n' ::
        (lines ((longCaption o).map String.toList) ++
          (lines (body.map String.toList) ++ dropEndWhile isBlank (tabularEnd o))))) := by
  have hmark : ∃ c ∈ tabularEnd o, isBlank c = false :=
    ⟨'\\', by simp [tabularEnd, ending], by decide⟩
  unfold tabular trimEnd
  dsimp only
  rw [String.toList_ofList, toList_unlines]
  have hsplit : lines ((o.openingLines ++ [beginning (tabularEnvironment o) ++ braced t.spec] ++
      longCaption o ++ body ++ [ending (tabularEnvironment o)] ++ o.closingLines).map
        String.toList) = (lines (o.openingLines.map String.toList) ++
      ((beginning (tabularEnvironment o) ++ "\x7b").toList ++ (t.spec.toList ++ '\x7d' :: '\n' ::
        (lines ((longCaption o).map String.toList) ++ lines (body.map String.toList))))) ++
          tabularEnd o := by
    simp [tabularEnd, braced]
  rw [hsplit, dropEndWhile_append hmark]
  simp

/-- Equal tables have as many columns and the same lines in their bodies. -/
theorem tabular_inj (verticalRules : Bool) (hb : ∀ s ∈ body, '\n' ∉ s.toList)
    (hb' : ∀ s ∈ body', '\n' ∉ s.toList)
    (h : tabular o ⟨specs.resolve dialect m, verticalRules⟩ body =
      tabular o ⟨specs.resolve dialect n, verticalRules⟩ body') : m = n ∧ body = body' := by
  have hchars := congrArg String.toList h
  rw [toList_tabular, toList_tabular] at hchars
  have hspec := List.append_cancel_left (List.append_cancel_left hchars)
  obtain ⟨hcols, hrest⟩ := spec_inj verticalRules hspec
  have hlines := List.append_cancel_right (List.append_cancel_left (List.cons.inj hrest).2)
  have hmap {body : List String} (hb : ∀ s ∈ body, '\n' ∉ s.toList) :
      ∀ l ∈ body.map String.toList, '\n' ∉ l := by
    intro l hl
    obtain ⟨s, hs, rfl⟩ := List.mem_map.mp hl
    exact hb s hs
  have hbody := lines_inj (hmap hb) (hmap hb') hlines
  exact ⟨hcols, map_toList_injective hbody⟩

/-- The body of a table: its rows, each with lines below it, between a first and a last part. -/
def rowsBetween (first last : List String) (t : TabularColumns) (g : Grid)
    (below : Nat → List String) : List String :=
  first ++ ((List.range g.rows).flatMap fun row => rowLine t g row :: below row) ++ last

section Body

variable {first last : List String} {t : TabularColumns} {below below' : Nat → List String}

theorem notMem_rowsBetween (h : g.Layout R) (hf : g.Fits) (hw : g.Writable)
    (hfirst : ∀ s ∈ first, Flush s) (hlast : ∀ s ∈ last, Flush s)
    (hbelow : ∀ row, ∀ s ∈ below row, Flush s) :
    ∀ s ∈ rowsBetween first last t g below, '\n' ∉ s.toList := by
  intro s hs
  simp only [rowsBetween, List.mem_append, List.mem_flatMap, List.mem_range, List.mem_cons] at hs
  rcases hs with (hs | ⟨row, hr, rfl | hs⟩) | hs
  · exact (hfirst s hs).2
  · exact notMem_rowLine h hf hw hr
  · exact (hbelow row s hs).2
  · exact (hlast s hs).2

theorem indented_rowsBetween (hfirst : ∀ s ∈ first, Flush s) (hlast : ∀ s ∈ last, Flush s)
    (hbelow : ∀ row, ∀ s ∈ below row, Flush s) :
    indented (rowsBetween first last t g below) = (List.range g.rows).map (rowLine t g) := by
  rw [rowsBetween, indented_append, indented_append, indented_flush hfirst, indented_flush hlast,
    indented_rows t g hbelow, List.nil_append, List.append_nil]

/-- Equal tables around their rows come from grids that are alike. -/
theorem alike_of_tabular (verticalRules : Bool) (h : g.Layout R) (h' : g'.Layout S) (hf : g.Fits)
    (hf' : g'.Fits) (hw : g.Writable) (hw' : g'.Writable) (hfirst : ∀ s ∈ first, Flush s)
    (hlast : ∀ s ∈ last, Flush s) (hbelow : ∀ row, ∀ s ∈ below row, Flush s)
    (hbelow' : ∀ row, ∀ s ∈ below' row, Flush s)
    (heq : tabular o ⟨specs.resolve dialect g.cols, verticalRules⟩
        (rowsBetween first last ⟨specs.resolve dialect g.cols, verticalRules⟩ g below) =
      tabular o ⟨specs.resolve dialect g'.cols, verticalRules⟩
        (rowsBetween first last ⟨specs.resolve dialect g'.cols, verticalRules⟩ g' below')) :
    g.Alike g' R S := by
  obtain ⟨hcols, hbody⟩ := tabular_inj verticalRules
    (notMem_rowsBetween h hf hw hfirst hlast hbelow)
    (notMem_rowsBetween h' hf' hw' hfirst hlast hbelow') heq
  have hlines := congrArg indented hbody
  rw [indented_rowsBetween hfirst hlast hbelow, indented_rowsBetween hfirst hlast hbelow',
    ← hcols] at hlines
  have hrows : g.rows = g'.rows := by simpa using congrArg List.length hlines
  rw [← hrows] at hlines
  have hline := List.map_inj_left.mp hlines
  obtain ⟨hregions, htexts⟩ := Grid.same_of_unitTexts h h' hf hf' hw hw' hrows hcols
    fun row hr => rowLine_inj h h' hf hf' hw hw' hr (hrows ▸ hr) (hline row (List.mem_range.mpr hr))
  exact ⟨hrows, hcols, hregions, htexts⟩

end Body

theorem flush_of_mem_toList {style : LineStyle} {row : Nat} {s : String}
    (hs : s ∈ (g.boundaryText? row style).toList) : Flush s :=
  flush_boundaryText (Option.mem_toList.mp hs)

theorem plainTable_eq (g : Grid) (specs : ColumnSpecs) (o : TableOptions) :
    plainTable g specs o = tabular o ⟨specs.resolve .plain g.cols, o.verticalRules⟩
      (rowsBetween (if o.horizontalRules then ["\\hline"] else []) []
        ⟨specs.resolve .plain g.cols, o.verticalRules⟩ g fun row =>
          if o.horizontalRules then (g.boundaryText? row .normal).toList else []) := by
  simp [plainTable, rowsBetween]

theorem alike_of_plainTable (h : g.Layout R) (h' : g'.Layout S) (hf : g.Fits) (hf' : g'.Fits)
    (hw : g.Writable) (hw' : g'.Writable) (heq : plainTable g specs o = plainTable g' specs o) :
    g.Alike g' R S := by
  have hfirst : ∀ s ∈ (if o.horizontalRules then ["\\hline"] else []), Flush s := by
    intro s hs
    split at hs
    · rw [List.mem_singleton.mp hs]
      exact ⟨rfl, by decide⟩
    · cases hs
  have hbelow (g : Grid) (row : Nat) : ∀ s ∈ (if o.horizontalRules then
      (g.boundaryText? row .normal).toList else []), Flush s := by
    intro s hs
    split at hs
    · exact flush_of_mem_toList hs
    · cases hs
  rw [plainTable_eq, plainTable_eq] at heq
  exact alike_of_tabular o.verticalRules h h' hf hf' hw hw' hfirst (by simp) (hbelow g)
    (hbelow g') heq

theorem alike_of_rulesTable (h : g.Layout R) (h' : g'.Layout S) (hf : g.Fits) (hf' : g'.Fits)
    (hw : g.Writable) (hw' : g'.Writable) (heq : rulesTable g specs o = rulesTable g' specs o) :
    g.Alike g' R S := by
  have hbelow (g : Grid) (row : Nat) :
      ∀ s ∈ (if row + 1 < g.rows && (row = 0 || o.horizontalRules) then
        (g.boundaryText? row .mid).toList else []), Flush s := by
    intro s hs
    split at hs
    · exact flush_of_mem_toList hs
    · cases hs
  refine alike_of_tabular false h h' hf hf' hw hw' ?_ ?_ (hbelow g) (hbelow g') heq
  · intro s hs
    rw [List.mem_singleton.mp hs]
    exact ⟨rfl, by decide⟩
  · intro s hs
    rw [List.mem_singleton.mp hs]
    exact ⟨rfl, by decide⟩

end LatexTable.Latex
