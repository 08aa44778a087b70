import LatexTable.Latex.Render
import LatexTable.Proofs.Grid.Reachable
import LatexTable.Proofs.Latex.EntryKeys
/-!
The header of a table with a header, read entry by entry: one entry for each visible cell that spans
or has a style, with its place, its spans and its keys, and one definition for each hexadecimal
colour in those keys.
-/
namespace LatexTable
open Latex Text

namespace CellEntry

def isSpanning (e : CellEntry) : Bool := e.rowSpan.isSome || e.colSpan.isSome

/-- The cells that the entry is for. -/
def range (e : CellEntry) : CellRange :=
  ⟨e.row - 1, e.col - 1, e.row - 1 + (e.rowSpan.getD 1 - 1), e.col - 1 + (e.colSpan.getD 1 - 1)⟩

end CellEntry

namespace Cell

/-- A visible cell needs an entry when it spans or has a style that changes something. -/
def needsEntry (c : Cell) : Bool := !c.hidden && (c.isSpanning || c.style.hasEffect)

end Cell

namespace Grid

/-- The entries of a grid, row by row. -/
def entries (g : Grid) : List CellEntry :=
  (g.places.filter fun p => (g.cellAt p.1 p.2).needsEntry).map fun p =>
    (g.cellAt p.1 p.2).entry p.1 p.2

/-- A key of some entry refers to the colour. -/
def UsesColor (g : Grid) (color : Color) : Prop :=
  ∃ row < g.rows, ∃ col < g.cols, let c := g.cellAt row col
    c.needsEntry = true ∧
      (c.style.foreground = some color ∧ "fg=" ++ color.keyName ∈ (c.entry row col).keys ∨
        c.style.background = some color ∧ "bg=" ++ color.keyName ∈ (c.entry row col).keys)

end Grid

namespace Latex

/-- The items of a header, each on a line of its own, with a comma behind all but the last. -/
def headerLines : List String → List String
  | [] => []
  | [item] => ["  " ++ item]
  | item :: next :: items => ("  " ++ item ++ ",") :: headerLines (next :: items)

/-- The items of a header that are for the whole table. -/
def tblrSettings (g : Grid) (specs : ColumnSpecs) (o : TableOptions) : List String :=
  ("colspec = " ++ braced (tblrColspec g specs)) ::
    ((if o.horizontalRules then ["hlines"] else []) ++ if o.verticalRules then ["vlines"] else [])

/-- The lines of the table environment. -/
def tableLines (g : Grid) (specs : ColumnSpecs) (o : TableOptions) : List String :=
  (beginning (tblrEnvironment o) ++ outerSpec o ++ "\x7b") ::
    (headerLines (tblrHeader g specs o) ++ ["\x7d"] ++ g.rowList.map bodyLine ++
      [ending (tblrEnvironment o)])

variable {g : Grid} {R : Set CellRange} {r : CellRange} {c : Cell} {style : CellStyle}
  {color : Color} {specs : ColumnSpecs} {o : TableOptions} {row col : Nat} {item line : String}
  {items : List String} {e : CellEntry}

section Reading

/-- A style has keys exactly when it changes something. -/
theorem styleKeys_ne_nil_iff : styleKeys style ≠ [] ↔ style.hasEffect = true := by
  rw [← not_iff_not, not_not, Bool.not_eq_true]
  unfold styleKeys CellStyle.hasEffect
  cases style.isBold <;> cases style.isItalic <;> simp [and_assoc]

theorem cellEntry_eq_none_iff : cellEntry? c row col = none ↔ c.needsEntry = false := by
  unfold cellEntry? Cell.needsEntry
  cases c.hidden <;> cases c.isSpanning <;> cases c.style.hasEffect <;> simp

/-- What is read for a cell: its entry if it needs one. -/
theorem read_cell (h : c.style.ParsedColors) (row col : Nat) :
    CellEntry.read? <$> cellEntry? c row col =
      if c.needsEntry then some (some (c.entry row col)) else none := by
  cases he : cellEntry? c row col with
  | none =>
    rw [cellEntry_eq_none_iff.mp he]
    rfl
  | some item =>
    have hneeds : c.needsEntry = true := by
      by_contra hno
      rw [cellEntry_eq_none_iff.mpr ((Bool.not_eq_true _).mp hno)] at he
      cases he
    rw [hneeds]
    exact congrArg some (read_cellEntry h he)

end Reading

section Entries

theorem filterMap_ite {α β : Type} (as : List α) (p : α → Bool) (f : α → β) :
    (as.filterMap fun a => if p a then some (f a) else none) = (as.filter p).map f := by
  rw [← List.filterMap_eq_map, List.filterMap_filter]
  rfl

theorem tblrHeader_eq : tblrHeader g specs o = tblrSettings g specs o ++ cellEntries g := by
  simp [tblrHeader, tblrSettings]

theorem read_settings : ∀ item ∈ tblrSettings g specs o, CellEntry.read? item = none := by
  have hcolumns : CellEntry.read? ("colspec = " ++ braced (tblrColspec g specs)) = none := by
    simp [CellEntry.read?, behind?]
  intro item hitem
  simp only [tblrSettings, List.mem_cons, List.mem_append, List.mem_ite_nil_right,
    List.not_mem_nil, or_false] at hitem
  rcases hitem with rfl | ⟨-, rfl⟩ | ⟨-, rfl⟩
  · exact hcolumns
  · rfl
  · rfl

/-- The entries are read one by one, each as what it says of its cell. -/
theorem map_read_cellEntries (h : g.ParsedColors) :
    (cellEntries g).map CellEntry.read? = g.entries.map some := by
  rw [cellEntries, List.map_filterMap, Grid.entries, List.map_map]
  refine (List.filterMap_congr fun p _ => ?_).trans (filterMap_ite _ _ _)
  exact read_cell (h p.1 p.2) p.1 p.2

theorem isSpanning_entry : (c.entry row col).isSpanning = c.isSpanning := by
  unfold CellEntry.isSpanning Cell.entry Cell.isSpanning
  split <;> split <;> simp_all

/-- The entry of an owner is for the cells of its region. -/
theorem range_entry (h : g.Layout R) (hr : r ∈ R) (hs : r.startsAt row col = true) :
    ((g.cellAt row col).entry row col).range = r := by
  obtain ⟨-, hspan⟩ := h.owner r hr row col hs
  have hrows : r.minRow ≤ r.maxRow := h.ordered r hr .row
  have hcols : r.minCol ≤ r.maxCol := h.ordered r hr .column
  have hrowSpan : (g.cellAt row col).rowSpan = r.maxRow - r.minRow + 1 := hspan .row
  have hcolSpan : (g.cellAt row col).colSpan = r.maxCol - r.minCol + 1 := hspan .column
  have hgiven (n : Nat) : (if 1 < n + 1 then some (n + 1) else none).getD 1 - 1 = n := by
    cases n <;> rfl
  obtain ⟨rfl, rfl⟩ := CellRange.startsAt_iff.mp hs
  rw [CellEntry.range, Cell.entry, hrowSpan, hcolSpan]
  simp only [hgiven, Nat.add_sub_cancel, Nat.add_sub_cancel' hrows, Nat.add_sub_cancel' hcols]

/-- The spanning entries are the regions. -/
theorem spanning_entries (h : g.Layout R) (hf : g.Fits) :
    (g.entries.filter (·.isSpanning)).map CellEntry.range = g.regions := by
  have hspanning (c : Cell) : (c.isSpanning && c.needsEntry) = c.isMaster := by
    unfold Cell.needsEntry Cell.isMaster
    cases c.hidden <;> cases c.isSpanning <;> rfl
  have hrange : ∀ p ∈ g.places.filter fun p => (g.cellAt p.1 p.2).isMaster,
      ((g.cellAt p.1 p.2).entry p.1 p.2).range = (g.cellAt p.1 p.2).footprint p.1 p.2 := by
    intro p hp
    obtain ⟨r, hr, hs⟩ := h.isMaster_iff.mp (List.mem_filter.mp hp).2
    rw [range_entry h hr hs, h.footprint_owner (h.indexed hf) hr hs]
  calc (g.entries.filter (·.isSpanning)).map CellEntry.range
      = (g.places.filter fun p => (g.cellAt p.1 p.2).isMaster).map fun p =>
          ((g.cellAt p.1 p.2).entry p.1 p.2).range := by
        simp only [Grid.entries, List.filter_map, List.filter_filter, List.map_map,
          Function.comp_def, isSpanning_entry, hspanning]
    _ = (g.places.filter fun p => (g.cellAt p.1 p.2).isMaster).map fun p =>
          (g.cellAt p.1 p.2).footprint p.1 p.2 := List.map_congr_left hrange
    _ = g.regions := (filterMap_ite _ _ _).symm

/-- An entry without spans has keys. -/
theorem keys_ne_nil (he : e ∈ g.entries) (hs : e.isSpanning = false) : e.keys ≠ [] := by
  obtain ⟨p, hp, rfl⟩ := List.mem_map.mp he
  have hneeds := (List.mem_filter.mp hp).2
  rw [isSpanning_entry] at hs
  simp only [Cell.needsEntry, hs, Bool.false_or, Bool.and_eq_true] at hneeds
  exact styleKeys_ne_nil_iff.mpr hneeds.2

end Entries

section Colors

theorem needsEntry_of_style (hv : c.hidden = false) (hkeys : styleKeys c.style ≠ []) :
    c.needsEntry = true := by
  rw [Cell.needsEntry, hv, styleKeys_ne_nil_iff.mp hkeys, Bool.or_true]
  rfl

/-- The colours that keys refer to are those of visible cells. -/
theorem usesColor_iff : g.UsesColor color ↔ g.HasColor color := by
  constructor
  · intro h
    obtain ⟨row, hr, col, hc, hneeds, hcolor⟩ := h
    rw [Cell.needsEntry, Bool.and_eq_true, Bool.not_eq_true'] at hneeds
    exact ⟨row, hr, col, hc, hneeds.1, hcolor.imp And.left And.left⟩
  · intro h
    obtain ⟨row, hr, col, hc, hv, hcolor⟩ := h
    rcases hcolor with hcolor | hcolor
    · have hkey : "fg=" ++ color.keyName ∈ styleKeys (g.cellAt row col).style :=
        (tint_mem_styleKeys (.inl rfl)).mpr ⟨color, .inl ⟨rfl, hcolor⟩, rfl⟩
      exact ⟨row, hr, col, hc, needsEntry_of_style hv (List.ne_nil_of_mem hkey),
        .inl ⟨hcolor, hkey⟩⟩
    · have hkey : "bg=" ++ color.keyName ∈ styleKeys (g.cellAt row col).style :=
        (tint_mem_styleKeys (.inr rfl)).mpr ⟨color, .inr ⟨rfl, hcolor⟩, rfl⟩
      exact ⟨row, hr, col, hc, needsEntry_of_style hv (List.ne_nil_of_mem hkey),
        .inr ⟨hcolor, hkey⟩⟩

end Colors

section Lines

theorem unlines_headerLines (hne : items ≠ []) :
    unlines (headerLines items) = "  " ++ ",\n  ".intercalate items ++ "\n" := by
  fun_induction headerLines items with
  | case1 => exact absurd rfl hne
  | case2 item => simp [unlines_singleton]
  | case3 item next items ih =>
    rw [← List.singleton_append, unlines_append, ih (by simp), unlines_singleton]
    apply String.toList_injective
    simp

/-- The source as lines: the definitions stand in front of everything else. -/
theorem tblrTable_lines (g : Grid) (specs : ColumnSpecs) (o : TableOptions) :
    tblrTable g specs o = trimEnd (unlines
      (definitions g ++ o.openingLines ++ tableLines g specs o ++ o.closingLines)) := by
  have hne : tblrHeader g specs o ≠ [] := List.cons_ne_nil _ _
  have hheader : unlines ["  " ++ ",\n  ".intercalate (tblrHeader g specs o)] =
      unlines (headerLines (tblrHeader g specs o)) := by
    rw [unlines_singleton, unlines_headerLines hne]
  have hframe : unlines (tblrFrame g specs o) =
      unlines ((beginning (tblrEnvironment o) ++ outerSpec o ++ "\x7b") ::
        (headerLines (tblrHeader g specs o) ++ ["\x7d"])) := by
    rw [tblrFrame, ← List.singleton_append, ← List.singleton_append (l := ["\x7d"]),
      unlines_append, unlines_append, hheader, ← unlines_append, ← unlines_append]
    rfl
  rw [tblrTable_eq, hframe]
  simp only [← unlines_append]
  simp [tableLines]

theorem not_isDefinition (h : line.toList.take 2 ≠ ['\\', 'd']) : isDefinition line = false := by
  rw [← Bool.not_eq_true]
  intro hdefinition
  exact h (take_of_isDefinition hdefinition)

/-- A line of the header is indented. -/
theorem take_headerLines : ∀ line ∈ headerLines items, line.toList.take 2 = [' ', ' '] := by
  fun_induction headerLines items with
  | case1 => simp
  | case2 item => simp
  | case3 item next items ih => exact List.forall_mem_cons.mpr ⟨by simp, ih⟩

theorem openingLines_not_definition : ∀ line ∈ o.openingLines, isDefinition line = false := by
  have hlines : ∀ line ∈ [beginning "table" ++ "[htbp]", "\\centering", beginning "center"],
      isDefinition line = false := by decide
  intro line hline
  exact hlines line (openingLines_subset o hline)

theorem closingLines_not_definition : ∀ line ∈ o.closingLines, isDefinition line = false := by
  have hcommand (name text : String) (hname : name = "\\caption" ∨ name = "\\label") :
      isDefinition (name ++ braced text) = false := by
    apply not_isDefinition
    rcases hname with rfl | rfl <;> simp
  intro line hline
  unfold TableOptions.closingLines at hline
  split at hline
  · cases hline
  · split at hline
    · simp only [List.mem_append, Option.mem_toList, Option.map_eq_some_iff,
        List.mem_singleton] at hline
      rcases hline with (⟨caption, -, rfl⟩ | ⟨label, -, rfl⟩) | rfl
      · exact hcommand _ caption (.inl rfl)
      · exact hcommand _ label (.inr rfl)
      · decide
    · split at hline
      · rw [List.mem_singleton.mp hline]
        decide
      · cases hline

theorem tableLines_not_definition : ∀ line ∈ tableLines g specs o, isDefinition line = false := by
  intro line hline
  apply not_isDefinition
  simp only [tableLines, List.mem_cons, List.mem_append, List.mem_map, List.not_mem_nil,
    or_false] at hline
  rcases hline with rfl | ((hline | rfl) | ⟨cells, -, rfl⟩) | rfl
  · simp [beginning]
  · rw [take_headerLines line hline]
    decide
  · decide
  · simp [bodyLine]
  · simp [ending]

end Lines

section TextLines

variable {environment : String} {ls : List String}

/-- The lines of a text. -/
def textLines (s : String) : List String := (splitAt '\n' s.toList).map String.ofList

/-- A text that ends with the end of an environment has the lines that it was put together from. -/
theorem textLines_unlines (hls : ∀ l ∈ ls ++ [ending environment], '\n' ∉ l.toList) :
    textLines (trimEnd (unlines (ls ++ [ending environment]))) = ls ++ [ending environment] := by
  have hend :
      (ending environment).toList = "\\end\x7b".toList ++ environment.toList ++ ['\x7d'] := by
    simp [ending, braced]
  have htrim : (trimEnd (unlines (ls ++ [ending environment]))).toList =
      lines (ls.map String.toList) ++ (ending environment).toList := by
    have hblank : isBlank '\n' = true := by decide
    have hbrace : isBlank '\x7d' = false := by decide
    have hmark : ∃ c ∈ lines [(ending environment).toList], isBlank c = false :=
      ⟨'\x7d', by simp [lines, hend], hbrace⟩
    rw [trimEnd, String.toList_ofList, toList_unlines, List.map_append, lines_append,
      List.map_singleton, dropEndWhile_append hmark, hend]
    simp [lines, dropEndWhile, hblank, hbrace]
  rw [textLines, htrim]
  clear htrim hend
  induction ls with
  | nil =>
    rw [List.map_nil, lines_nil, List.nil_append, splitAt_of_notMem (hls _ (by simp))]
    simp
  | cons l ls ih =>
    have hl : '\n' ∉ l.toList := hls l (by simp)
    have hrest := ih fun l hl => hls l (List.mem_cons_of_mem _ hl)
    rw [List.map_cons, lines_cons, List.append_assoc, List.cons_append, splitAt_append_cons hl,
      List.map_cons, hrest, String.ofList_toList, List.cons_append]

/-- The last line ends an environment. -/
theorem exists_ending (ls : List String) (g : Grid) (specs : ColumnSpecs) (o : TableOptions) :
    ∃ before environment,
      ls ++ tableLines g specs o ++ o.closingLines = before ++ [ending environment] := by
  have htable : ∃ before, tableLines g specs o = before ++ [ending (tblrEnvironment o)] :=
    ⟨_, by rw [tableLines, ← List.cons_append]⟩
  obtain ⟨before, htable⟩ := htable
  unfold TableOptions.closingLines
  split
  · exact ⟨ls ++ before, tblrEnvironment o, by simp [htable]⟩
  · split
    · exact ⟨_, "table", by rw [← List.append_assoc]⟩
    · split
      · exact ⟨_, "center", rfl⟩
      · exact ⟨ls ++ before, tblrEnvironment o, by simp [htable]⟩

end TextLines

/-- The header of a table describes the grid. Behind the settings of the whole table stand entries
that say what the visible cells with spans or a style have, row by row; those with spans are for the
regions, the others have keys. The lines begin with the definitions of the colours that the keys
refer to, one for each, and no other line is a definition. The lines here are those that the source
is put together from; a text with a line end in it runs over several lines of the source. -/
structure HeaderDescribed (g : Grid) (specs : ColumnSpecs) (o : TableOptions) : Prop where
  written : g.latex .modern specs o = trimEnd (unlines
    (definitions g ++ o.openingLines ++ tableLines g specs o ++ o.closingLines))
  entries : ∃ items, tblrHeader g specs o = tblrSettings g specs o ++ items ∧
    items.map CellEntry.read? = g.entries.map some
  settings : ∀ item ∈ tblrSettings g specs o, CellEntry.read? item = none
  spanning : (g.entries.filter (·.isSpanning)).map CellEntry.range = g.regions
  keyed : ∀ e ∈ g.entries, e.isSpanning = false → e.keys ≠ []
  defined_once : ∀ digits, g.UsesColor (.html digits) →
    (definitions g).filter (definedName? · = some (Color.html digits).keyName) = [definition digits]
  defined_only : ∀ line ∈ definitions g, isDefinition line = true ∧
    ∃ digits, g.UsesColor (.html digits) ∧ line = definition digits
  no_other : ∀ line ∈ o.openingLines ++ tableLines g specs o ++ o.closingLines,
    isDefinition line = false
  apart : ∀ digits digits', (Color.html digits).keyName = (Color.html digits').keyName →
    digits = digits'

/-- Where no line holds a line end, the lines are those of the text, and the definitions are all
lines of the text that define a colour. -/
theorem HeaderDescribed.textLines (h : HeaderDescribed g specs o)
    (hlines : ∀ line ∈ definitions g ++ o.openingLines ++ tableLines g specs o ++ o.closingLines,
      '\n' ∉ line.toList) :
    textLines (g.latex .modern specs o) =
        definitions g ++ o.openingLines ++ tableLines g specs o ++ o.closingLines ∧
      (textLines (g.latex .modern specs o)).filter isDefinition = definitions g := by
  have htext : Latex.textLines (g.latex .modern specs o) =
      definitions g ++ o.openingLines ++ tableLines g specs o ++ o.closingLines := by
    obtain ⟨before, environment, hend⟩ :=
      exists_ending (definitions g ++ o.openingLines) g specs o
    rw [h.written, hend]
    exact textLines_unlines (hend ▸ hlines)
  refine ⟨htext, ?_⟩
  have hown : (definitions g).filter isDefinition = definitions g :=
    List.filter_eq_self.mpr fun line hline => (h.defined_only line hline).1
  have hother : (o.openingLines ++ tableLines g specs o ++ o.closingLines).filter isDefinition =
      [] := by
    rw [List.filter_eq_nil_iff]
    intro line hline
    simp [h.no_other line hline]
  rw [htext, List.append_assoc, List.append_assoc, ← List.append_assoc o.openingLines,
    List.filter_append, hown, hother, List.append_nil]

/-- The header of a table describes every reachable grid whose colours have been parsed. -/
theorem reachable_header_described (h : g.Reachable) (hcolors : g.ParsedColors)
    (specs : ColumnSpecs) (o : TableOptions) : HeaderDescribed g specs o where
  written := tblrTable_lines g specs o
  entries := ⟨cellEntries g, tblrHeader_eq, map_read_cellEntries hcolors⟩
  settings := read_settings
  spanning := spanning_entries h.layout h.fits
  keyed _ he hs := keys_ne_nil he hs
  defined_once _ hcolor := filter_definedName hcolors (usesColor_iff.mp hcolor)
  defined_only := by
    intro line hline
    obtain ⟨color, hcolor, hline⟩ := mem_definitions.mp hline
    obtain ⟨digits, rfl, rfl⟩ := definition?_eq_some.mp hline
    exact ⟨(definedName?_definition (hcolor.parsed hcolors)).1, digits, usesColor_iff.mpr hcolor,
      rfl⟩
  no_other := by
    simp only [List.forall_mem_append]
    exact ⟨⟨openingLines_not_definition, tableLines_not_definition⟩, closingLines_not_definition⟩
  apart _ _ hname := html_keyName_injective hname

theorem reachable_header_described_colored :
    let color := StyleCommand.foreground (some (.html "FF0000"))
    let g := ((Grid.blank 2 3).after (.merge 0 0 1 1)).after (.applyStyle 0 0 1 2 0 0 color)
    HeaderDescribed g [] {} := by
  refine reachable_header_described (.edit _ (.edit _ (.blank 2 3 ?_) ?_) ?_)
    (Grid.parsedColors_of_text ?_) [] {} <;> decide

end Latex
end LatexTable
