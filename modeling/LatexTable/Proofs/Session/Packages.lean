import LatexTable.Proofs.Latex.ClosedUnits
import LatexTable.Proofs.Latex.EntryKeys
import LatexTable.Proofs.Packages
/-!
The list of packages against the source of a table. The list comes from a walk of its own over
regions and styles, the source from one serializer for each dialect, and the two agree on every
command that a package brings along.
-/
namespace LatexTable
open Latex Text

/-- The colour is written in the source of the grid: behind a command that switches to it, in its
definition, or under its name in the header entry of a cell. -/
inductive Grid.Writes (g : Grid) (source : String) (color : Color) : Prop where
  | switch {command : String} : command ∈ switches →
      Contains source (command ++ color.arguments) → Writes g source color
  | definition {line : String} : color.definition? = some line → Contains source line →
      Writes g source color
  | key {entry : String} : entry ∈ cellEntries g → Tinted entry color.keyName →
      Writes g source color

/-- The packages are those whose commands the source of the grid contains. -/
structure Grid.NeedsExactly (g : Grid) (source : String) (packages : List Package) : Prop where
  multirow : Listed packages "multirow" ↔ Contains source "\\multirow"
  table : ListedWith packages "xcolor" "table" ↔ Contains source "\\cellcolor"
  booktabs : Listed packages "booktabs" ↔ ∃ rule ∈ ruleCommands, Contains source rule
  longtable : Listed packages "longtable" ↔ Contains source (beginning "longtable")
  tabularray : Listed packages "tabularray" ↔
    Contains source (beginning "tblr") ∨ Contains source (beginning "longtblr")
  xcolor : Contains source "\\textcolor" ∨ Contains source "\\definecolor" ∨
    (∃ entry ∈ cellEntries g, ∃ name, Tinted entry name) → Listed packages "xcolor"
  dvipsnames : ∀ color, (∃ s, Color.parse s = .ok color) → color.needsDvipsNames = true →
    g.Writes source color → ListedWith packages "xcolor" "dvipsnames"
  once : ListedOnce packages

variable {g : Grid} {specs : ColumnSpecs} {o : TableOptions} {dialect : Dialect} {R : Set CellRange}
  {c : Cell} {color color' : Color} {color? : Option Color} {w u command : String}

section Switches

theorem command_append_inj {u u' v v' : String} (hu : u ∈ packageCommands ++ switches)
    (hu' : u' ∈ packageCommands ++ switches) (h : u ++ v = u' ++ v') : u = u' ∧ v = v' := by
  have hlist := congrArg String.toList h
  have hprefix : (u ++ v).toList <+: (u' ++ v').toList := hlist ▸ List.prefix_rfl
  obtain rfl : u = u' := base_eq hu hu' (.inl hprefix)
  simp only [String.toList_append, List.append_cancel_left_eq] at hlist
  exact ⟨rfl, String.toList_injective hlist⟩

theorem Color.arguments_ne_empty (color : Color) : color.arguments ≠ "" := by
  cases color <;> simp [Color.arguments]

/-- A switch with a colour is no command alone. -/
theorem append_arguments_ne (hu : u ∈ switches) (hw : w ∈ packageCommands ++ switches) :
    u ++ color.arguments ≠ w := by
  intro h
  have hend : u ++ color.arguments = w ++ "" := h.trans String.append_empty.symm
  exact Color.arguments_ne_empty color (command_append_inj (List.mem_append_right _ hu) hw hend).2

/-- A switch to a colour is no other command. -/
theorem SwitchTo.notMem (hcommand : command ∈ switches) (h : SwitchTo command color? w) :
    w ∉ packageCommands := by
  intro hw
  have hapart : ∀ u ∈ switches, u ∉ packageCommands := by decide
  obtain ⟨color, -, rfl | rfl⟩ := h
  · exact hapart _ hcommand hw
  · exact append_arguments_ne hcommand (List.mem_append_left _ hw) rfl

theorem switchTo_iff (hcommand : command ∈ switches) (hw : w ∈ switches) :
    SwitchTo command color? w ↔ color?.isSome = true ∧ w = command := by
  constructor
  · rintro ⟨color, rfl, rfl | rfl⟩
    · exact ⟨rfl, rfl⟩
    · exact absurd rfl (append_arguments_ne hcommand (List.mem_append_right _ hw))
  · rintro ⟨hcolor, rfl⟩
    obtain ⟨color, rfl⟩ := Option.isSome_iff_exists.mp hcolor
    exact ⟨color, rfl, .inl rfl⟩

/-- A parsed colour behind a switch is the one that is switched to. -/
theorem SwitchTo.color_eq (hcommand : command ∈ switches) (hu : u ∈ switches)
    (hcolor? : ∀ color, color? = some color → ∃ s, Color.parse s = .ok color)
    (hcolor : ∃ s, Color.parse s = .ok color)
    (h : SwitchTo command color? (u ++ color.arguments)) : color? = some color := by
  have hbase := List.mem_append_right packageCommands hu
  have hbase' := List.mem_append_right packageCommands hcommand
  obtain ⟨color', rfl, heq | heq⟩ := h
  · exact absurd heq (append_arguments_ne hu hbase')
  · have happend := (command_append_inj hbase hbase' heq).2
    rw [arguments_inj hcolor (hcolor? color' rfl) (happend ▸ List.prefix_rfl)]

end Switches

section Cells

/-- Of the commands that are no switches, a cell emits that of its rows. -/
theorem Cell.emitted_command (hw : w ∈ packageCommands) :
    c.Emitted w ↔ 1 < c.rowSpan ∧ w = "\\multirow" := by
  have hfill : ¬SwitchTo "\\cellcolor" c.style.background w := fun h => h.notMem (by decide) hw
  have htext : ¬SwitchTo "\\textcolor" c.style.foreground w := fun h => h.notMem (by decide) hw
  simp [Cell.Emitted, hfill, htext]

theorem Cell.emitted_switch (hw : w ∈ switches) : c.Emitted w ↔
    (c.style.background.isSome = true ∧ w = "\\cellcolor") ∨
      (c.hasContent = true ∧ c.style.foreground.isSome = true ∧ w = "\\textcolor") := by
  have hother : w ≠ "\\multirow" := by
    revert w
    decide
  have hfill : SwitchTo "\\cellcolor" c.style.background w ↔ _ := switchTo_iff (by decide) hw
  have htext : SwitchTo "\\textcolor" c.style.foreground w ↔ _ := switchTo_iff (by decide) hw
  simp [Cell.Emitted, hother, hfill, htext]

/-- A parsed colour that a cell switches to is one of its style. -/
theorem Cell.Emitted.style_color (hw : w ∈ switches) (hstyle : c.style.ParsedColors)
    (hcolor : ∃ s, Color.parse s = .ok color) (h : c.Emitted (w ++ color.arguments)) :
    c.style.foreground = some color ∨ c.style.background = some color := by
  rcases h with h | ⟨-, h⟩ | ⟨-, h⟩
  · exact .inr (h.color_eq (by decide) hw hstyle.background hcolor)
  · exact absurd h (append_arguments_ne hw (by decide))
  · exact .inl (h.color_eq (by decide) hw hstyle.foreground hcolor)

end Cells

section Tables

/-- A region of more rows than one is told by its first cell. -/
theorem Grid.Layout.exists_rows_iff (h : g.Layout R) (hf : g.Fits) :
    (∃ r ∈ g.regions, 1 < r.rowCount) ↔ ∃ row < g.rows, ∃ col < g.cols,
      (g.cellAt row col).hidden = false ∧ 1 < (g.cellAt row col).rowSpan := by
  constructor
  · rintro ⟨r, hr, hrows⟩
    have hmem := (h.mem_regions (h.indexed hf)).mp hr
    obtain ⟨hrow, hcol⟩ := h.first_lt hmem
    obtain ⟨hv, hspan⟩ := h.owner r hmem _ _ r.startsAt_first
    exact ⟨r.minRow, hrow, r.minCol, hcol, hv, hrows.trans_eq (hspan .row).symm⟩
  · rintro ⟨row, -, col, -, hv, hspan⟩
    have hmaster : (g.cellAt row col).isMaster = true := by
      simp [Cell.isMaster, Cell.isSpanning, hv, hspan]
    obtain ⟨r, hr, hstart⟩ := h.isMaster_iff.mp hmaster
    have hrows := (h.owner r hr _ _ hstart).2 .row
    exact ⟨r, (h.mem_regions (h.indexed hf)).mpr hr, hspan.trans_eq hrows⟩

theorem Grid.emitted_command (h : g.Layout R) (hf : g.Fits) (hw : w ∈ packageCommands) :
    g.Emitted o w ↔ (o.longTable = true ∧ w = beginning "longtable") ∨
      ((∃ r ∈ g.regions, 1 < r.rowCount) ∧ w = "\\multirow") := by
  simp only [Grid.Emitted, Cell.emitted_command hw, h.exists_rows_iff hf]
  refine or_congr_right ⟨?_, ?_⟩
  · rintro ⟨row, hr, col, hc, hv, hspan, hname⟩
    exact ⟨⟨row, hr, col, hc, hv, hspan⟩, hname⟩
  · rintro ⟨⟨row, hr, col, hc, hv, hspan⟩, hname⟩
    exact ⟨row, hr, col, hc, hv, hspan, hname⟩

theorem Grid.Emitted.exists_cell (h : g.Emitted o w) (hw : w ≠ beginning "longtable") :
    ∃ row < g.rows, ∃ col < g.cols, (g.cellAt row col).hidden = false ∧
      (g.cellAt row col).Emitted w := by
  rcases h with ⟨-, hname⟩ | h
  · exact absurd hname hw
  · exact h

variable (hg : g.Plain) (hcolors : g.ParsedColors) (ho : o.Plain) (hs : ∀ s ∈ specs, s.Admitted)
include hg hcolors ho hs

/-- Both dialects of the tabular grammar contain the same commands, apart from rules. -/
theorem contains_tabularTable (h : g.Layout R) (hf : g.Fits) (hd : dialect ≠ .modern)
    (hw : Watched w) (hrule : w ∉ ruleCommands) :
    Contains (g.latex dialect specs o) w ↔ g.Emitted o w := by
  cases dialect with
  | modern => exact absurd rfl hd
  | plain => exact contains_plainTable hg hcolors ho hs h hf hw
  | rules => exact (contains_rulesTable hg hcolors ho hs h hf).2 w hw hrule

theorem contains_rule_iff (h : g.Layout R) (hf : g.Fits) (hd : dialect ≠ .modern) :
    (∃ rule ∈ ruleCommands, Contains (g.latex dialect specs o) rule) ↔ dialect = .rules := by
  cases dialect with
  | modern => exact absurd rfl hd
  | rules =>
    exact iff_of_true ⟨"\\toprule", by decide, (contains_rulesTable hg hcolors ho hs h hf).1⟩ rfl
  | plain =>
    refine iff_of_false ?_ nofun
    rintro ⟨rule, hrule, hcontains⟩
    have hother : ∀ rule ∈ ruleCommands, rule ∈ packageCommands ∧
        rule ≠ beginning "longtable" ∧ rule ≠ "\\multirow" := by decide
    obtain ⟨hcommand, hne⟩ := hother rule hrule
    have hemitted := (contains_plainTable hg hcolors ho hs h hf (.command hcommand)).mp hcontains
    simp [Grid.emitted_command h hf hcommand, hne] at hemitted

/-- The colours that a table of the tabular grammar switches to. -/
theorem hasColor_of_switch (h : g.Layout R) (hf : g.Fits) (hd : dialect ≠ .modern)
    (hu : u ∈ switches) (hcolor : ∃ s, Color.parse s = .ok color)
    (hcontains : Contains (g.latex dialect specs o) (u ++ color.arguments)) : g.HasColor color := by
  have hrule : u ++ color.arguments ∉ ruleCommands := fun hmem => by
    have hcommand : ruleCommands ⊆ packageCommands ++ switches := by decide
    exact append_arguments_ne hu (hcommand hmem) rfl
  have hemitted := (contains_tabularTable hg hcolors ho hs h hf hd (.color hu hcolor) hrule).mp
    hcontains
  obtain ⟨row, hr, col, hc, hv, hcell⟩ := hemitted.exists_cell
    (append_arguments_ne hu (by decide))
  exact ⟨row, hr, col, hc, hv, hcell.style_color hu (hcolors row col) hcolor⟩

theorem contains_cellcolor_iff (h : g.Layout R) (hf : g.Fits) (hd : dialect ≠ .modern) :
    Contains (g.latex dialect specs o) "\\cellcolor" ↔ ∃ row < g.rows, ∃ col < g.cols,
      (g.cellAt row col).hidden = false ∧
        (g.cellAt row col).style.background.isSome = true := by
  rw [contains_tabularTable hg hcolors ho hs h hf hd (.switch (by decide)) (by decide)]
  have hother : "\\cellcolor" ≠ beginning "longtable" := by decide
  simp [Grid.Emitted, Cell.emitted_switch (show "\\cellcolor" ∈ switches by decide), hother]

theorem hasColor_of_textcolor (h : g.Layout R) (hf : g.Fits) (hd : dialect ≠ .modern)
    (hcontains : Contains (g.latex dialect specs o) "\\textcolor") : ∃ color, g.HasColor color := by
  rw [contains_tabularTable hg hcolors ho hs h hf hd (.switch (by decide)) (by decide)] at hcontains
  obtain ⟨row, hr, col, hc, hv, hcell⟩ := hcontains.exists_cell (by decide)
  rw [Cell.emitted_switch (by decide)] at hcell
  obtain ⟨-, hfirst⟩ | ⟨-, hsome, -⟩ := hcell
  · exact absurd hfirst (by decide)
  · obtain ⟨color, hcolor⟩ := Option.isSome_iff_exists.mp hsome
    exact ⟨color, row, hr, col, hc, hv, .inl hcolor⟩

omit hg ho hs in
/-- An option is listed for a colour that is written, if its switches are those of visible cells. -/
theorem listedWith_of_writes {source : String} (hname : color.needsDvipsNames = true)
    (hswitch : ∀ command ∈ switches, Contains source (command ++ color.arguments) →
      g.HasColor color) (h : g.Writes source color) :
    ListedWith (requiredPackages g dialect o) "xcolor" "dvipsnames" := by
  rw [listedWith_dvipsnames_iff]
  cases h with
  | switch hcommand hcontains => exact ⟨color, hswitch _ hcommand hcontains, hname⟩
  | definition hdefinition =>
    -- a colour that is defined mixes no names
    cases color with
    | named expression => cases hdefinition
    | html digits => simp [Color.needsDvipsNames, Color.baseNames] at hname
  | key hentry htinted =>
    obtain ⟨color', hcolor, heq⟩ := exists_color_of_tinted hcolors hentry htinted
    rw [eq_of_keyName hname (hcolor.parsed hcolors) heq] at hcolor
    exact ⟨color, hcolor, hname⟩

theorem needsExactly_tabular (h : g.Layout R) (hf : g.Fits) (hd : dialect ≠ .modern) :
    g.NeedsExactly (g.latex dialect specs o) (requiredPackages g dialect o) := by
  have hcommand {w : String} (hw : w ∈ packageCommands) (hrule : w ∉ ruleCommands) :=
    (contains_tabularTable hg hcolors ho hs h hf hd (.command hw) hrule).trans
      (Grid.emitted_command h hf hw)
  have hbegin : beginning "longtable" ≠ "\\multirow" ∧ beginning "tblr" ≠ "\\multirow" ∧
      beginning "longtblr" ≠ "\\multirow" ∧ "\\definecolor" ≠ beginning "longtable" ∧
        beginning "tblr" ≠ beginning "longtable" ∧
          beginning "longtblr" ≠ beginning "longtable" := by decide
  obtain ⟨hlong, htblr, hlongtblr, hdefine, htblr', hlongtblr'⟩ := hbegin
  exact {
    multirow := by
      rw [hcommand (by decide) (by decide), listed_iff]
      simp [hd, hlong.symm]
    table := by
      rw [contains_cellcolor_iff hg hcolors ho hs h hf hd, listedWith_table_iff]
      simp [hd]
    booktabs := by
      rw [contains_rule_iff hg hcolors ho hs h hf hd, listed_iff]
      simp
    longtable := by
      rw [hcommand (by decide) (by decide), listed_iff]
      simp [hd, hlong]
    tabularray := by
      rw [hcommand (by decide) (by decide), hcommand (by decide) (by decide), listed_iff]
      simp [hd, htblr, hlongtblr, htblr', hlongtblr']
    xcolor := by
      rw [listed_iff]
      rintro (htext | hdefinition | ⟨entry, hentry, name, htinted⟩)
      · exact .inr ⟨rfl, hasColor_of_textcolor hg hcolors ho hs h hf hd htext⟩
      · rw [hcommand (by decide) (by decide)] at hdefinition
        simp [hdefine] at hdefinition
      · obtain ⟨color, hcolor, -⟩ := exists_color_of_tinted hcolors hentry htinted
        exact .inr ⟨rfl, color, hcolor⟩
    dvipsnames := fun color hcolor hname => listedWith_of_writes hcolors hname fun command hu =>
      hasColor_of_switch hg hcolors ho hs h hf hd hu hcolor
    once := listedOnce_requiredPackages g dialect o }

/-- A table with a header needs the package of its environment, and the colour package. -/
theorem needsExactly_tblr :
    g.NeedsExactly (tblrTable g specs o) (requiredPackages g .modern o) := by
  have hcontains {w : String} (hw : Watched w) := contains_tblrTable hg hcolors ho hs hw
  have hnone {w : String} (hw : Watched w) (hne : w ≠ beginning "tblr" ∧
      w ≠ beginning "longtblr" ∧ w ≠ "\\definecolor") : ¬Contains (tblrTable g specs o) w := by
    rw [hcontains hw]
    split <;> simp [hne]
  exact {
    multirow := iff_of_false (by simp [listed_iff])
      (hnone (.command (by decide)) (by decide))
    table := iff_of_false (by simp [listedWith_table_iff])
      (hnone (.switch (by decide)) (by decide))
    booktabs := by
      refine iff_of_false (by simp [listed_iff]) ?_
      rintro ⟨rule, hrule, h⟩
      have hother : ∀ rule ∈ ruleCommands, rule ∈ packageCommands ∧ rule ≠ beginning "tblr" ∧
          rule ≠ beginning "longtblr" ∧ rule ≠ "\\definecolor" := by decide
      exact hnone (.command (hother rule hrule).1) (hother rule hrule).2 h
    longtable := iff_of_false (by simp [listed_iff])
      (hnone (.command (by decide)) (by decide))
    tabularray := by
      refine iff_of_true (by simp [listed_iff]) ?_
      rw [hcontains (.command (by decide)), hcontains (.command (by decide))]
      cases o.longTable <;> simp
    xcolor := by
      rw [listed_iff]
      rintro (htext | hdefinition | ⟨entry, hentry, name, htinted⟩)
      · exact absurd htext (hnone (.switch (by decide)) (by decide))
      · rw [hcontains (.command (by decide))] at hdefinition
        obtain hbegin | ⟨hdefined, -⟩ := hdefinition
        · split at hbegin <;> exact absurd hbegin (by decide)
        · obtain ⟨line, hline⟩ := List.exists_mem_of_ne_nil _ hdefined
          obtain ⟨color, hcolor, -⟩ := mem_definitions.mp hline
          exact .inr ⟨rfl, color, hcolor⟩
      · obtain ⟨color, hcolor, -⟩ := exists_color_of_tinted hcolors hentry htinted
        exact .inr ⟨rfl, color, hcolor⟩
    dvipsnames := fun color hcolor hname => by
      refine listedWith_of_writes hcolors hname fun command hu hswitch => absurd hswitch ?_
      exact hnone (.color hu hcolor) ⟨append_arguments_ne hu (by decide),
        append_arguments_ne hu (by decide), append_arguments_ne hu (by decide)⟩
    once := listedOnce_requiredPackages g .modern o }

end Tables

namespace Session

variable {s t : Session}

/-- After every run the packages are those whose commands the source contains, as long as the texts
hold no command of their own, the colours have been parsed and the widths are ones that the registry
accepts. -/
theorem packages_match_source (hs : Start s) (hrun : Run s t) (hg : t.grid.Plain)
    (hcolors : t.grid.ParsedColors) (ho : t.options.Plain) (hwidths : ∀ c ∈ t.columns, c.Admitted)
    (dialect : Dialect) : t.grid.NeedsExactly (t.latexAs dialect)
      (requiredPackages t.grid dialect t.options) := by
  have hgrid := (hs.consistent.run hrun).grid
  by_cases hd : dialect = .modern
  · subst hd
    exact needsExactly_tblr hg hcolors ho hwidths
  · exact needsExactly_tabular hg hcolors ho hwidths hgrid.layout hgrid.fits hd

theorem packages_match_source_colored :
    let t := ((((((blank 2 2).after (.setText 0 0 "a")).after (.extendSelection 1 0)).after
      .mergeSelection).after (.applyStyle (.foreground (some (.named "Red!30"))))).after
        (.setWidth 1 (some "2cm"))).after (.setOptions { caption := some "b", longTable := true })
    t.grid.NeedsExactly (t.latexAs .rules) (requiredPackages t.grid .rules t.options) := by
  refine packages_match_source (.blank 2 2 ?_) (.edit _ (.edit _ (.edit _ (.edit _ (.edit _
    (.edit _ .nil ?_) ?_) ?_) ?_) ?_) ?_) (Grid.plain_of_places ?_) (Grid.parsedColors_of_text ?_)
      (TableOptions.plain_of_texts ?_) ?_ .rules
  all_goals decide +kernel

end Session
end LatexTable
