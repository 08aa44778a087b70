import LatexTable.Delimited.Import
import LatexTable.Proofs.Latex.ClosedUnits
import LatexTable.Proofs.Text.Escape
/-!
Importing records with escaping. The grid has a plain cell for every field, and whatever stands in
the fields, neither the check nor a row of the table finds anything to act on in the cells.
-/
namespace LatexTable
open Latex Text

namespace Grid

theorem widest_map {records : List (List String)} (f : String → String) :
    widest (records.map (List.map f)) = widest records := by
  simp [widest, Function.comp_def]

end Grid

namespace ImportOptions

variable {o : ImportOptions} {records : List (List String)} {row col : Nat} {t : TabularColumns}

/-- The row is set in bold face. -/
def IsHeader (o : ImportOptions) (row : Nat) : Prop := row = 0 ∧ o.boldHeader = true

instance : Decidable (o.IsHeader row) := inferInstanceAs (Decidable (_ ∧ _))

/-- The field for a place, if the record is long enough. -/
def field? (records : List (List String)) (row col : Nat) : Option String :=
  (records[row]?.getD [])[col]?

/-- The text for a field that is escaped, empty where there is no field. -/
def escapedText (field? : Option String) : String :=
  field?.elim "" fun field => Text.escape (trim field)

/-- The cell for a field that is escaped. -/
def escapedCell (o : ImportOptions) (field? : Option String) (row : Nat) : Cell where
  text := escapedText field?
  style := { bold := if o.IsHeader row then some true else none }

/-- What is written for a field that is escaped. -/
def escapedUnit (o : ImportOptions) (field? : Option String) (row : Nat) : String :=
  match field? with
  | none => ""
  | some field =>
    if trim field = "" then ""
    else if o.IsHeader row then "\\textbf" ++ braced (Text.escape (trim field))
    else Text.escape (trim field)

theorem closed_escapedCell (field? : Option String) :
    Closed (o.escapedCell field? row).text := by
  cases field? with
  | none => exact closed_escape ""
  | some field => exact closed_escape (trim field)

theorem closed_escapedUnit (field? : Option String) : Closed (o.escapedUnit field? row) := by
  have hempty : Closed "" := closed_escape ""
  cases field? with
  | none => exact hempty
  | some field =>
    unfold escapedUnit
    dsimp only
    split_ifs
    · exact hempty
    · have hname : Reads "\\textbf".toList 0 false := Reads.name (by decide)
      have hbold := hname.append (reads_escape (trim field)).group
      rw [← toList_braced, ← String.toList_append] at hbold
      exact hbold.closed_iff.mpr rfl
    · exact closed_escape (trim field)

/-- A blank field writes nothing, any other one its escaped text. -/
theorem nonBlank?_escapedCell (field? : Option String) :
    nonBlank? (o.escapedCell field? row).text =
      (field?.bind nonBlank?).map Text.escape := by
  cases field? with
  | none => exact nonBlank?_eq_none.mpr (show trim "" = "" by decide)
  | some field =>
    have htrim : trim (Text.escape (trim field)) = Text.escape (trim field) := by
      rw [trim_escape, trim_trim]
    simp only [escapedCell, escapedText, Option.elim_some, Option.bind_some, nonBlank?, htrim,
      String.isEmpty_iff, escape_eq_empty]
    split_ifs <;> rfl

/-- The cell stands alone and in its column, with no emphasis but the bold face of a header. -/
theorem unitText_escapedCell (field? : Option String) :
    t.unitText (.visible col (o.escapedCell field? row)) = o.escapedUnit field? row := by
  have hwidth : (RowUnit.visible col (o.escapedCell field? row)).width = 1 := rfl
  have hcolumn : t.overridesAlignment col (o.escapedCell field? row).style = false := rfl
  have hrows : (o.escapedCell field? row).rowSpan = 1 := rfl
  have hfill : (o.escapedCell field? row).fill? = none := rfl
  simp only [TabularColumns.unitText, hwidth, hcolumn, Cell.body, hrows, hfill, lt_irrefl,
    decide_false, Bool.or_self, Bool.false_eq_true, if_false]
  rw [Cell.emphasized, nonBlank?_escapedCell]
  cases field? with
  | none => rfl
  | some field =>
    cases hblank : nonBlank? field with
    | none => simp [hblank, escapedUnit, nonBlank?_eq_none.mp hblank]
    | some text =>
      obtain ⟨rfl, hne⟩ := nonBlank?_eq_some.mp hblank
      by_cases hheader : o.IsHeader row <;>
        simp [hblank, escapedCell, escapedUnit, hne, hheader, CellStyle.isItalic, CellStyle.isBold]

/-- A header is made bold after the texts are laid out. -/
theorem escapedCell_eq (field? : Option String) :
    o.escapedCell field? row =
      if o.IsHeader row then (Cell.ofText (escapedText field?)).update boldContent
      else .ofText (escapedText field?) := by
  unfold escapedCell
  split_ifs <;> rfl

/-- The grid of the records, every field escaped. -/
def escapedGrid (o : ImportOptions) (records : List (List String)) : Grid :=
  .tabulate records.length (max (Grid.widest records) 1) fun row col =>
    o.escapedCell (field? records row col) row

theorem cellAt_escapedGrid (hr : row < (o.escapedGrid records).rows)
    (hc : col < (o.escapedGrid records).cols) :
    (o.escapedGrid records).cellAt row col = o.escapedCell (field? records row col) row :=
  Grid.cellAt_tabulate hr hc

/-- The grid of the escaped texts alone. -/
def fieldGrid (records : List (List String)) : Grid :=
  .tabulate records.length (max (Grid.widest records) 1) fun row col =>
    .ofText (escapedText (field? records row col))

theorem ofTexts_escaped (hne : records ≠ []) (he : o.escape = true) :
    Grid.ofTexts (records.map (List.map o.cellText)) = fieldGrid records := by
  have hlength : max records.length 1 = records.length :=
    max_eq_left (List.length_pos_iff.mpr hne)
  have htext (row col : Nat) :
      (((records.map (List.map o.cellText))[row]?.getD [])[col]?).getD "" =
        escapedText (field? records row col) := by
    rw [field?, List.getElem?_map]
    cases records[row]? with
    | none => rfl
    | some fields =>
      rw [Option.map_some, Option.getD_some, Option.getD_some, List.getElem?_map]
      cases fields[col]? with
      | none => rfl
      | some field => simp [cellText, escapedText, he]
  rw [Grid.ofTexts, Grid.ofTextsIn_eq_tabulate, Grid.widest_map, List.length_map, hlength]
  simp only [htext, fieldGrid]

theorem updateRange_header (hne : records ≠ []) (hbold : o.boldHeader = true) :
    ∃ n, (fieldGrid records).updateRange
      (.ofCorners 0 0 0 ((fieldGrid records).cols - 1)) boldContent =
        .ok (o.escapedGrid records, n) := by
  have hrows : 0 < (fieldGrid records).rows := List.length_pos_iff.mpr hne
  have hcols : 0 < (fieldGrid records).cols := Nat.le_max_right _ 1
  have hcheck : (fieldGrid records).checkRange
      (.ofCorners 0 0 0 ((fieldGrid records).cols - 1)) = .ok () := by
    rw [Grid.checkRange_eq_ok_iff]
    simp only [CellRange.ofCorners]
    omega
  obtain ⟨g, n, hg⟩ := Grid.exists_updateEach (fun _ _ => boldContent) hcheck
  have hgrid : g = o.escapedGrid records := by
    rw [Grid.updateEach_eq_ok hg]
    refine (Grid.tabulate_full ..).ext (h := o.escapedGrid records) (Grid.tabulate_full ..)
      rfl rfl ?_
    intro row col (hr : row < (fieldGrid records).rows) (hc : col < (fieldGrid records).cols)
    have hheader : (CellRange.ofCorners 0 0 0 ((fieldGrid records).cols - 1)).contains row col =
        true ↔ o.IsHeader row := by
      rw [CellRange.contains_iff, IsHeader, and_iff_left hbold]
      simp only [CellRange.ofCorners]
      omega
    have hcell : (o.escapedGrid records).cellAt row col =
        o.escapedCell (field? records row col) row := cellAt_escapedGrid hr hc
    have hfield : (fieldGrid records).cellAt row col =
        .ofText (escapedText (field? records row col)) := Grid.cellAt_tabulate hr hc
    rw [Grid.cellAt_tabulate hr hc, hcell, escapedCell_eq, hfield]
    exact if_congr hheader rfl rfl
  exact ⟨n, hgrid ▸ hg⟩

theorem ofRecords_eq (hne : records ≠ []) (he : o.escape = true) :
    Grid.ofRecords records o = .ok (o.escapedGrid records) := by
  have hempty : records.isEmpty = false := List.isEmpty_eq_false_iff.mpr hne
  rw [Grid.ofRecords, hempty, if_neg Bool.false_ne_true]
  dsimp only
  rw [ofTexts_escaped hne he]
  split
  next hbold =>
    obtain ⟨n, hn⟩ := updateRange_header hne hbold
    exact Result.bind_eq_ok.mpr ⟨_, hn, rfl⟩
  next hbold =>
    have hplain (row : Nat) : ¬o.IsHeader row := fun h => hbold h.2
    simp only [escapedGrid, escapedCell_eq, hplain, if_false]
    rfl

theorem escapedGrid_layout (hne : records ≠ []) : (o.escapedGrid records).Layout ∅ := by
  apply Grid.Layout.of_visible (List.length_pos_iff.mpr hne) (Nat.le_max_right _ 1)
  exact fun _ _ => ⟨rfl, fun axis => by cases axis <;> rfl⟩

/-- The check of the grid with default columns reports no error. -/
theorem checkTable_escapedGrid (hne : records ≠ []) (dialect : Dialect) (options : TableOptions) :
    (checkTable (o.escapedGrid records) (.blank (o.escapedGrid records).cols) dialect
      options).hasErrors = false := by
  refine checkTable_hasErrors_eq_false.mpr ⟨?_, List.length_replicate, fun row hr col hc _ => ?_⟩
  · rw [Grid.validate, (escapedGrid_layout hne).fault?_eq_none Grid.indexed_empty]
  · rw [cellAt_escapedGrid hr hc]
    exact closed_iff.mp (closed_escapedCell _)

theorem units_escapedGrid (hne : records ≠ []) (hr : row < (o.escapedGrid records).rows)
    (t : TabularColumns) :
    ((o.escapedGrid records).rowUnits row).map t.unitText =
      (List.range (o.escapedGrid records).cols).map fun col =>
        o.escapedUnit (field? records row col) row := by
  rw [(escapedGrid_layout hne).rowUnits_plain hr, List.map_map]
  refine List.map_congr_left fun col hc => ?_
  rw [Function.comp_apply, cellAt_escapedGrid hr (List.mem_range.mp hc), unitText_escapedCell]

/-- The records as a grid of cells that do nothing but show their texts. -/
structure Imports (o : ImportOptions) (records : List (List String)) (g : Grid) : Prop where
  rows : g.rows = records.length
  cols : g.cols = max (Grid.widest records) 1
  validate : g.validate = .ok ()
  regions : g.regions = []
  cells : ∀ row < g.rows, ∀ col < g.cols,
    g.cellAt row col = o.escapedCell (field? records row col) row
  clean : ∀ dialect options, (checkTable g (.blank g.cols) dialect options).hasErrors = false
  units : ∀ row < g.rows, ∀ t : TabularColumns, (g.rowUnits row).map t.unitText =
    (List.range g.cols).map fun col => o.escapedUnit (field? records row col) row
  closed : ∀ row < g.rows, ∀ t : TabularColumns, ∀ u ∈ g.rowUnits row, Closed (t.unitText u)

end ImportOptions

namespace Grid

/-- Importing records with escaping succeeds, and gives cells without any effect on the table
around them, whatever their fields hold. -/
theorem escaped_import_inert {records : List (List String)} {o : ImportOptions} (hne : records ≠ [])
    (he : o.escape = true) :
    ∃ g, Grid.ofRecords records o = .ok g ∧ o.Imports records g ∧
      ∀ text, Delimited.records (o.delimiter.getD (.detect text)).char text = records →
        Grid.ofDelimited text o = .ok g := by
  have hgrid := ImportOptions.ofRecords_eq hne he
  have hlayout := ImportOptions.escapedGrid_layout (o := o) hne
  refine ⟨_, hgrid, ?_, fun text htext => ?_⟩
  · constructor
    case validate => rw [Grid.validate, hlayout.fault?_eq_none Grid.indexed_empty]
    case regions =>
      rw [List.eq_nil_iff_forall_not_mem]
      exact fun r hr => (hlayout.mem_regions indexed_empty).mp hr
    case cells => exact fun row hr col hc => ImportOptions.cellAt_escapedGrid hr hc
    case clean => exact ImportOptions.checkTable_escapedGrid hne
    case units => exact fun row hr t => ImportOptions.units_escapedGrid hne hr t
    case closed =>
      intro row hr t u hu
      have hunit := List.mem_map_of_mem (f := t.unitText) hu
      rw [ImportOptions.units_escapedGrid hne hr t] at hunit
      obtain ⟨col, -, hcol⟩ := List.mem_map.mp hunit
      exact hcol ▸ ImportOptions.closed_escapedUnit _
    all_goals rfl
  · rw [Grid.ofDelimited, htext, hgrid]

theorem escaped_import_inert_header :
    let records := [["a\\", "\x7bb"], [" 50% & more~ "]]
    let o : ImportOptions := { boldHeader := true }
    ∃ g, Grid.ofRecords records o = .ok g ∧ o.Imports records g ∧
      ∀ text, Delimited.records (o.delimiter.getD (.detect text)).char text = records →
        Grid.ofDelimited text o = .ok g :=
  escaped_import_inert (by decide) rfl

end Grid
end LatexTable
