import LatexTable.Check.Table
import LatexTable.Proofs.Grid.View
/-!
When the check of a table reports an error: for the encoding of the grid, for the length of the
registry, or for the text of a visible cell. Everything else that it reports is no error.
-/
namespace LatexTable

/-- None of the diagnostics is an error. -/
def NoErrors (ds : List Diagnostic) : Prop := ∀ d ∈ ds, d.severity ≠ .error

variable {g : Grid} {columns : ColumnSpecs} {dialect : Dialect} {o : TableOptions}
  {ds ds' : List Diagnostic} {c : Cell} {row col : Nat}

theorem Report.hasErrors_eq_false {r : Report} :
    r.hasErrors = false ↔ NoErrors r.diagnostics := by
  simp [hasErrors, count, NoErrors]

theorem noErrors_append : NoErrors (ds ++ ds') ↔ NoErrors ds ∧ NoErrors ds' := by
  simp [NoErrors, or_imp, forall_and]

theorem noErrors_registry : NoErrors (registryDiagnostics g columns) ↔ columns.length = g.cols := by
  by_cases hlength : columns.length = g.cols <;> simp [registryDiagnostics, NoErrors, hlength]

theorem noErrors_encoding : NoErrors (encodingDiagnostics g) ↔ g.validate = .ok () := by
  cases hfault : g.fault? <;> simp [encodingDiagnostics, Grid.validate, NoErrors, hfault]

theorem noErrors_columns : NoErrors (columnDiagnostics dialect columns) := by
  intro d hd
  simp only [columnDiagnostics, List.mem_filterMap, Prod.exists] at hd
  obtain ⟨spec, mapped, col, -, hd⟩ := hd
  unfold columnDiagnostic? at hd
  split at hd
  · obtain rfl := Option.some.inj hd
    nofun
  · split at hd
    · cases hd
    · obtain rfl := Option.some.inj hd
      nofun

theorem noErrors_colors {style : CellStyle} : NoErrors (colorDiagnostics style row col) := by
  intro d hd
  simp only [colorDiagnostics, List.mem_flatMap, List.mem_map] at hd
  obtain ⟨color, -, name, -, rfl⟩ := hd
  nofun

theorem noErrors_theme : NoErrors (themeDiagnostics dialect o) := by
  unfold themeDiagnostics
  split <;> [skip; split] <;> simp [NoErrors]

theorem noErrors_label : NoErrors (labelDiagnostics o) := by
  unfold labelDiagnostics
  split <;> simp [NoErrors]

theorem noErrors_rules : NoErrors (ruleDiagnostics dialect o) := by
  unfold ruleDiagnostics
  split <;> simp [NoErrors]

theorem severity_brace (text : String) (fault : Text.BraceFault) :
    (braceDiagnostic text row col fault).severity = .error := by
  cases fault <;> rfl

/-- A visible cell has an error exactly when one of the scanners finds a fault in its text. -/
theorem noErrors_cell : NoErrors (cellDiagnostics c row col) ↔
    (c.hidden = false → Text.hasBareAmpersand c.text = false ∧ Text.braceFaults c.text = []) := by
  unfold cellDiagnostics
  split
  next hhidden => simp [NoErrors, hhidden]
  next hvisible =>
    have hamp : NoErrors (ampersandDiagnostics c.text row col) ↔
        Text.hasBareAmpersand c.text = false := by
      unfold ampersandDiagnostics
      split <;> simp_all [NoErrors, Diagnostic.withSuggestion, Diagnostic.withSource,
        Diagnostic.atCell]
    have hbraces : NoErrors ((Text.braceFaults c.text).map (braceDiagnostic c.text row col)) ↔
        Text.braceFaults c.text = [] := by
      simp [NoErrors, severity_brace, List.eq_nil_iff_forall_not_mem]
    rw [Bool.not_eq_true] at hvisible
    simp [noErrors_append, hamp, hbraces, noErrors_colors, hvisible]

theorem noErrors_grid : NoErrors (gridDiagnostics g) ↔ ∀ row < g.rows, ∀ col < g.cols,
    NoErrors (cellDiagnostics (g.cellAt row col) row col) := by
  have hempty (b : Bool) : NoErrors (if b then []
      else [{ severity := .info, message := "table has no content" }]) := by
    cases b <;> simp [NoErrors]
  simp only [gridDiagnostics, noErrors_append, hempty, and_true]
  simp only [NoErrors, List.mem_flatMap, Prod.exists, Grid.mem_places]
  constructor
  · intro h row hr col hc d hd
    exact h d ⟨row, col, ⟨hr, hc⟩, hd⟩
  · rintro h d ⟨row, col, ⟨hr, hc⟩, hd⟩
    exact h row hr col hc d hd

/-- The check reports no error exactly when the grid is well encoded, the registry fits it, and no
scanner finds a fault in a visible cell, whatever the dialect and the options. -/
theorem checkTable_hasErrors_eq_false : (checkTable g columns dialect o).hasErrors = false ↔
    g.validate = .ok () ∧ columns.length = g.cols ∧
      ∀ row < g.rows, ∀ col < g.cols, (g.cellAt row col).hidden = false →
        Text.hasBareAmpersand (g.cellAt row col).text = false ∧
          Text.braceFaults (g.cellAt row col).text = [] := by
  simp only [Report.hasErrors_eq_false, checkTable, noErrors_append, noErrors_encoding,
    noErrors_registry, noErrors_columns, noErrors_grid, noErrors_cell, noErrors_theme,
    noErrors_label, noErrors_rules, and_true, and_assoc]

end LatexTable
