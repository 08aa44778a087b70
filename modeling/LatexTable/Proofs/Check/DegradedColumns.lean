import LatexTable.Proofs.Column.Fitted
import LatexTable.Proofs.Guarded.Check
/-!
Degraded columns. A mapped column says truly whether its dialect has the kind that was asked for and
which kind is written instead, and the check names the columns of which it does not have the kind,
each once and in their order.
-/
namespace LatexTable

/-- The letter with which the token of a kind of column begins. -/
def ColumnKind.letter : ColumnKind → Char
  | .left => 'l'
  | .center => 'c'
  | .right => 'r'
  | .flexibleRatio => 'X'
  | .flexibleFixed => 'Q'
  | .paragraph => 'p'

namespace MappedColumn

def isFallback (c : MappedColumn) : Bool :=
  match c.mapping with
  | .native => false
  | .fallback .. => true

/-- The mapped column says what has become of a specification. -/
structure Tells (c : MappedColumn) (s : ColumnSpec) : Prop where
  native_iff : c.mapping = .native ↔ c.kind = s.kind
  fallback : ∀ source target, c.mapping = .fallback source target →
    source = s.kind ∧ target = c.kind ∧ source ≠ target
  letter : c.token.toList.head? = some c.kind.letter

variable {s : ColumnSpec} {kind target : ColumnKind} {token : String}

theorem tells_native (hkind : s.kind = kind) (h : token.toList.head? = some kind.letter) :
    (native kind token).Tells s :=
  ⟨iff_of_true rfl hkind.symm, nofun, h⟩

theorem tells_fallback (hkind : s.kind = kind) (hne : kind ≠ target)
    (h : token.toList.head? = some target.letter) : (fallback kind target token).Tells s := by
  subst hkind
  refine ⟨iff_of_false nofun hne.symm, ?_, h⟩
  rintro _ _ ⟨⟩
  exact ⟨rfl, rfl, hne⟩

end MappedColumn

namespace ColumnSpec

open MappedColumn Decimal

variable {dialect : Dialect} {total : Binary64} {s : ColumnSpec}

theorem head?_paragraphToken (w : String) :
    (paragraphToken w).toList.head? = some ColumnKind.paragraph.letter := by
  simp [paragraphToken, ColumnKind.letter]

theorem tells_mapModern (s : ColumnSpec) : s.mapModern.Tells s := by
  unfold mapModern
  split
  case h_1 hkind | h_2 hkind | h_3 hkind | h_4 hkind _ => exact tells_native hkind rfl
  case h_5 hkind _ =>
    split
    · exact tells_native hkind (by simp [ColumnKind.letter])
    · exact tells_fallback hkind (by decide) (by simp [ColumnKind.letter])
  case h_6 hkind _ | h_9 hkind _ => exact tells_fallback hkind (by decide) rfl
  case h_7 hkind _ =>
    split
    · exact tells_fallback hkind (by decide) rfl
    · exact tells_native hkind (by simp [ColumnKind.letter])
  case h_8 hkind _ => exact tells_native hkind (head?_paragraphToken _)

theorem tells_mapTabular (total : Binary64) (s : ColumnSpec) : (s.mapTabular total).Tells s := by
  unfold mapTabular
  split
  case h_1 hkind | h_2 hkind | h_3 hkind => exact tells_native hkind rfl
  case h_4 hkind _ => exact tells_native hkind (head?_paragraphToken _)
  case h_5 hkind _ | h_8 hkind _ | h_9 hkind _ => exact tells_fallback hkind (by decide) rfl
  case h_6 hkind _ | h_7 hkind _ =>
    exact tells_fallback hkind (by decide) (head?_paragraphToken _)

theorem tells_mapWith (dialect : Dialect) (total : Binary64) (s : ColumnSpec) :
    (s.mapWith dialect total).Tells s := by
  cases dialect with
  | modern => exact tells_mapModern s
  | plain | rules => exact tells_mapTabular total s

/-- A paragraph without a width is a fallback everywhere. -/
theorem isFallback_of_paragraph (hkind : s.kind = .paragraph) (hwidth : s.effectiveWidth? = none) :
    (s.mapWith dialect total).isFallback = true := by
  cases dialect <;> simp [mapWith, mapModern, mapTabular, hkind, hwidth, isFallback, fallback]

/-- The severity and the place of a diagnostic about a column. -/
theorem columnDiagnostic?_mapWith (col : Nat) :
    (columnDiagnostic? dialect col s (s.mapWith dialect total)).map
        (fun d => (d.severity, d.column)) =
      if (s.mapWith dialect total).isFallback then some (.warning, some (col + 1)) else none := by
  unfold columnDiagnostic?
  split
  next hparagraph =>
    simp only [Bool.and_eq_true, decide_eq_true_eq, Option.isNone_iff_eq_none] at hparagraph
    rw [if_pos (isFallback_of_paragraph hparagraph.1 hparagraph.2)]
    rfl
  next =>
    cases hmapping : (s.mapWith dialect total).mapping with
    | native => simp [isFallback, hmapping]
    | fallback source target =>
      simp [isFallback, hmapping, Diagnostic.withSource, Diagnostic.atColumn]

end ColumnSpec

/-- The diagnostic names a column and no cell. -/
def Diagnostic.isOfColumn (d : Diagnostic) : Bool := d.row.isNone && d.column.isSome

namespace ColumnSpecs

variable {g : Grid} {specs : ColumnSpecs} {dialect : Dialect} {o : TableOptions}

theorem forall₂_tells (dialect : Dialect) (specs : ColumnSpecs) :
    List.Forall₂ MappedColumn.Tells (specs.mapFor dialect) specs := by
  rw [mapFor_eq, List.forall₂_map_left_iff, List.forall₂_same]
  exact fun s _ => ColumnSpec.tells_mapWith dialect specs.ratioTotal s

/-- The diagnostics about a registry, each by severity and place. -/
theorem columnDiagnostics_map :
    (columnDiagnostics dialect specs).map (fun d => (d.severity, d.column)) =
      ((specs.mapFor dialect).zipIdx.filter (·.1.isFallback)).map
        fun (_, col) => (.warning, some (col + 1)) := by
  rw [mapFor_eq, columnDiagnostics, mapFor_eq, ← List.map_prod_left_eq_zip, List.map_filterMap,
    List.zipIdx_map, List.zipIdx_map, List.filterMap_map, List.filter_map, List.map_map,
    ← List.filterMap_eq_filter, List.map_filterMap]
  refine List.filterMap_congr ?_
  rintro ⟨s, col⟩ -
  refine (ColumnSpec.columnDiagnostic?_mapWith col).trans ?_
  cases hfallback : (s.mapWith dialect specs.ratioTotal).isFallback <;>
    simp [Option.guard, hfallback]

theorem filter_encoding : (encodingDiagnostics g).filter Diagnostic.isOfColumn = [] := by
  unfold encodingDiagnostics
  split <;> rfl

theorem filter_registry : (registryDiagnostics g specs).filter Diagnostic.isOfColumn = [] := by
  unfold registryDiagnostics
  split <;> rfl

/-- What is found in a cell names the cell, and an empty table names no place. -/
theorem filter_grid : (gridDiagnostics g).filter Diagnostic.isOfColumn = [] := by
  rw [List.filter_eq_nil_iff]
  intro d hd
  simp only [gridDiagnostics, List.mem_append, List.mem_flatMap] at hd
  rcases hd with ⟨⟨row, col⟩, -, hd⟩ | hd
  · simp [Diagnostic.isOfColumn, (place_of_mem_cellDiagnostics hd).1]
  · split at hd
    · cases hd
    · rw [List.mem_singleton.mp hd]
      decide

theorem filter_theme : (themeDiagnostics dialect o).filter Diagnostic.isOfColumn = [] := by
  unfold themeDiagnostics
  split <;> [rfl; split] <;> rfl

theorem filter_label : (labelDiagnostics o).filter Diagnostic.isOfColumn = [] := by
  unfold labelDiagnostics
  split <;> rfl

theorem filter_rules : (ruleDiagnostics dialect o).filter Diagnostic.isOfColumn = [] := by
  unfold ruleDiagnostics
  split <;> rfl

/-- No other diagnostic of a check is about a column. -/
theorem filter_isOfColumn :
    (checkTable g specs dialect o).diagnostics.filter Diagnostic.isOfColumn =
      columnDiagnostics dialect specs := by
  have hcolumns : (columnDiagnostics dialect specs).filter Diagnostic.isOfColumn =
      columnDiagnostics dialect specs := by
    refine List.filter_eq_self.mpr fun d hd => ?_
    obtain ⟨hrow, col, -, hcol⟩ := column_of_mem_columnDiagnostics hd
    simp [Diagnostic.isOfColumn, hrow, hcol]
  simp only [checkTable, List.filter_append, filter_encoding, filter_registry, hcolumns,
    filter_grid, filter_theme, filter_label, filter_rules, List.nil_append, List.append_nil]

/-- A check warns once about each column that its dialect writes as another kind, in the order of
the columns, and about no other column; and a mapped column says what has become of the column: it
is native exactly when it has the kind that was asked for, a fallback names both kinds, which
differ, and the token begins with the letter of the kind that is written. -/
theorem degraded_columns_reported (g : Grid) (specs : ColumnSpecs) (dialect : Dialect)
    (o : TableOptions) :
    ((checkTable g specs dialect o).diagnostics.filter Diagnostic.isOfColumn).map
        (fun d => (d.severity, d.column)) =
      ((specs.mapFor dialect).zipIdx.filter (·.1.isFallback)).map
        (fun (_, col) => (.warning, some (col + 1))) ∧
    List.Forall₂ MappedColumn.Tells (specs.mapFor dialect) specs := by
  rw [filter_isOfColumn]
  exact ⟨columnDiagnostics_map, forall₂_tells dialect specs⟩

end ColumnSpecs
end LatexTable
