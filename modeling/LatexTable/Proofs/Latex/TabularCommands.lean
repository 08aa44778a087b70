import LatexTable.Proofs.Latex.ColumnTokens
import LatexTable.Proofs.Latex.TabularReader
/-!
The package commands in a table of the tabular grammar: those of its visible cells, the fill of a
region again in every further row of it, the environment, and the typographic rules.
-/
namespace LatexTable
open Latex Text

/-- A switch to the colour, if there is one: the command, alone and with its arguments. -/
def SwitchTo (command : String) (color? : Option Color) (w : String) : Prop :=
  ∃ color, color? = some color ∧ (w = command ∨ w = command ++ color.arguments)

/-- The package commands in the body of a visible cell. -/
def Cell.Emitted (c : Cell) (w : String) : Prop :=
  SwitchTo "\\cellcolor" c.style.background w ∨ (1 < c.rowSpan ∧ w = "\\multirow") ∨
    (c.hasContent = true ∧ SwitchTo "\\textcolor" c.style.foreground w)

/-- The package commands in a unit: below its first row a region has its fill only. -/
def RowUnit.Emitted : RowUnit → String → Prop
  | .visible _ c => c.Emitted
  | .continuation _ owner => SwitchTo "\\cellcolor" owner.style.background

/-- No text of the grid holds a command. -/
def Grid.Plain (g : Grid) : Prop := ∀ row col, '\\' ∉ (g.cellAt row col).text.toList

theorem Grid.plain_of_places {g : Grid}
    (h : ∀ place ∈ g.places, '\\' ∉ (g.cellAt place.1 place.2).text.toList) : g.Plain := by
  intro row col
  by_cases hin : row < g.rows ∧ col < g.cols
  · exact h (row, col) (mem_places.mpr hin)
  · rw [cellAt_of_not_lt hin]
    decide

/-- No text of the options holds a command. -/
structure TableOptions.Plain (o : TableOptions) : Prop where
  caption : ∀ text, o.caption = some text → '\\' ∉ text.toList
  label : ∀ text, o.label = some text → '\\' ∉ text.toList
  theme : ∀ text, o.theme = some text → '\\' ∉ text.toList

theorem TableOptions.plain_of_texts {o : TableOptions}
    (h : ∀ text ∈ o.caption.toList ++ o.label.toList ++ o.theme.toList, '\\' ∉ text.toList) :
    o.Plain where
  caption text ht := h text (by simp [ht])
  label text ht := h text (by simp [ht])
  theme text ht := h text (by simp [ht])

variable {c : Cell} {u : RowUnit} {t : TabularColumns} {o : TableOptions} {g : Grid}
  {R : Set CellRange} {row : Nat}

namespace Latex

theorem silent_trim {s : String} (h : '\\' ∉ s.toList) : Silent (trim s) :=
  Silent.of_notMem (by rw [toList_trim]; exact fun hmem => h (trimmed_subset hmem))

theorem silent_of_nonBlank {s t : String} (h : '\\' ∉ s.toList) (ht : nonBlank? s = some t) :
    Silent t := by
  rw [← (nonBlank?_eq_some.mp ht).1]
  exact silent_trim h

section Cells

theorem emits_emphasized (h : c.style.ParsedColors) (hplain : '\\' ∉ c.text.toList) :
    Emits c.emphasized fun w =>
      c.hasContent = true ∧ SwitchTo "\\textcolor" c.style.foreground w := by
  unfold Cell.emphasized Cell.hasContent
  cases htext : nonBlank? c.text with
  | none => exact silent_empty.congr fun _ _ => by simp
  | some text =>
    have hwrap (b : Bool) (command : String) {s : String} (hcommand : Silent command)
        (hs : Silent s) : Silent (if b then command ++ braced s else s) := by
      cases b
      · exact hs
      · exact hcommand.append hs.braced
    have hinner := hwrap c.style.isBold "\\textbf" (silent_plainCommand (by decide))
      (hwrap c.style.isItalic "\\textit" (silent_plainCommand (by decide))
        (silent_of_nonBlank hplain htext))
    dsimp only
    cases hcolor : c.style.foreground with
    | none => exact hinner.congr fun _ _ => by simp [SwitchTo]
    | some color =>
      refine ((emits_switch (by decide) (h.foreground color hcolor)).append_silent
        hinner.braced).congr fun w _ => ?_
      simp [SwitchTo]

theorem emits_fill (h : c.style.ParsedColors) :
    Emits (c.fill?.getD "") (SwitchTo "\\cellcolor" c.style.background) := by
  unfold Cell.fill?
  cases hcolor : c.style.background with
  | none => exact silent_empty.congr fun _ _ => by simp [SwitchTo]
  | some color =>
    exact (emits_switch (by decide) (h.background color hcolor)).congr fun w _ => by simp [SwitchTo]

theorem emits_spanned (h : c.style.ParsedColors) (hplain : '\\' ∉ c.text.toList) :
    Emits (spanned c) fun w => (1 < c.rowSpan ∧ w = "\\multirow") ∨
      (c.hasContent = true ∧ SwitchTo "\\textcolor" c.style.foreground w) := by
  have hemphasized := emits_emphasized h hplain
  unfold spanned
  split
  next hspan =>
    have hposition : Silent ((c.style.valign.map fun v =>
        bracketed v.multirowLetter.toString).getD "") := by
      cases c.style.valign with
      | none => exact silent_empty
      | some v => cases v <;> exact Silent.of_notMem (by decide)
    have hcommand := (((emits_command (u := "\\multirow") (by decide)).append_silent
      hposition).append_silent (silent_toString c.rowSpan).braced).append_silent
        (Silent.of_notMem (s := braced "*") (by decide))
    exact (hcommand.append hemphasized.braced).congr fun w _ => by simp [hspan]
  next hspan => exact hemphasized.congr fun w _ => by simp [hspan]

theorem body_eq (c : Cell) :
    c.body = c.fill?.getD "" ++ (if c.style.background.isSome then " " else "") ++ spanned c := by
  apply String.toList_injective
  rw [toList_body]
  unfold Cell.fill?
  cases c.style.background <;> simp

theorem emits_body (h : c.style.ParsedColors) (hplain : '\\' ∉ c.text.toList) :
    Emits c.body c.Emitted := by
  have hgap : Silent (if c.style.background.isSome then " " else "") := by
    split <;> exact Silent.of_notMem (by decide)
  rw [body_eq]
  exact ((emits_fill h).append_silent hgap).append (emits_spanned h hplain)

theorem emits_unitText (h : u.cell.style.ParsedColors) (hplain : '\\' ∉ u.cell.text.toList) :
    Emits (t.unitText u) u.Emitted := by
  have hcontent : Emits u.content u.Emitted := by
    cases u with
    | visible col c => exact emits_body h hplain
    | continuation col owner => exact emits_fill h
  rcases Grid.unitText_cases t u with ⟨-, htext⟩ | ⟨hown, htext⟩
  · rwa [htext]
  · have hspec : Silent (t.unitSpec u.col u.width u.cell.style) :=
      Silent.of_notMem fun hmem => absurd (mem_unitSpec hown _ hmem) (by decide)
    rw [htext]
    exact (((silent_plainCommand (by decide)).append (silent_toString _).braced).append
      hspec.braced).append_emits hcontent.braced

end Cells

section Rows

theorem emits_rowLine (hg : g.Plain) (hcolors : g.ParsedColors) (h : g.Layout R) (hf : g.Fits)
    (hr : row < g.rows) :
    Emits (rowLine t g row ++ "\n") fun w => ∃ u ∈ g.rowUnits row, u.Emitted w := by
  have hunits : ∀ u ∈ g.rowUnits row, Emits (t.unitText u) u.Emitted := by
    intro u hu
    obtain ⟨i, j, hcell⟩ := exists_cellAt_of_unit h hf hr hu
    exact emits_unitText (hcell ▸ hcolors i j) (hcell ▸ hg i j)
  have hrow := Emits.intercalate (s := " & ") (Silent.of_notMem (by decide)) hunits
  have hline : rowLine t g row ++ "\n" = "  " ++ t.rowText g row ++ " \\\\\n" := by
    rw [rowLine, String.append_assoc]
    rfl
  rw [hline]
  exact ((Silent.of_notMem (by decide)).append_emits hrow).append_silent silent_rowEnd

/-- The units of all rows emit what the visible cells emit: the fills below the first row of a
region are those of its owner. -/
theorem exists_unit_emitted_iff (h : g.Layout R) (hf : g.Fits) {w : String} :
    (∃ row < g.rows, ∃ u ∈ g.rowUnits row, u.Emitted w) ↔
      ∃ row < g.rows, ∃ col < g.cols, (g.cellAt row col).hidden = false ∧
        (g.cellAt row col).Emitted w := by
  constructor
  · rintro ⟨row, hr, u, hu, hw⟩
    rcases (h.mem_rowUnits_iff hf hr).mp hu with hu | hu
    · obtain ⟨col, hcol, rfl⟩ := List.mem_map.mp hu
      simp only [List.mem_filter, List.mem_range, Bool.not_eq_true'] at hcol
      exact ⟨row, hr, col, hcol.1, hcol.2, hw⟩
    · obtain ⟨r, hr, rfl⟩ := List.mem_map.mp hu
      have hmem := (h.mem_regions (h.indexed hf)).mp (List.mem_filter.mp hr).1
      obtain ⟨hrow, hcol⟩ := h.first_lt hmem
      exact ⟨r.minRow, hrow, r.minCol, hcol, (h.owner r hmem _ _ r.startsAt_first).1, .inl hw⟩
  · rintro ⟨row, hr, col, hc, hv, hw⟩
    refine ⟨row, hr, .visible col (g.cellAt row col), ?_, hw⟩
    have hvisible : RowUnit.visible col (g.cellAt row col) ∈ g.visibleUnits row :=
      List.mem_map.mpr ⟨col, List.mem_filter.mpr ⟨List.mem_range.mpr hc, by simp [hv]⟩, rfl⟩
    exact (h.mem_rowUnits_iff hf hr).mpr (.inl hvisible)

end Rows

section Table

variable {first last : List String} {below : Nat → List String} {P : Nat → String → Prop}
  {F L : String → Prop} {body : List String} {B : String → Prop}

theorem openingLines_subset (o : TableOptions) :
    o.openingLines ⊆ [beginning "table" ++ "[htbp]", "\\centering", beginning "center"] := by
  intro l hl
  unfold TableOptions.openingLines at hl
  split_ifs at hl <;> simp only [List.mem_cons, List.not_mem_nil, or_false] at hl ⊢ <;> tauto

theorem silent_openingLines (o : TableOptions) : ∀ l ∈ o.openingLines, Silent l := by
  intro l hl
  have hline := openingLines_subset o hl
  simp only [List.mem_cons, List.not_mem_nil, or_false] at hline
  rcases hline with rfl | rfl | rfl
  · exact (silent_plainCommand (by decide)).append (Silent.of_notMem (by decide))
  · exact silent_plainCommand (by decide)
  · exact silent_plainCommand (by decide)

theorem silent_captionText (h : o.Plain) {caption : String} (hc : o.captionText? = some caption) :
    Silent caption := by
  obtain ⟨text, htext, hcaption⟩ := Option.bind_eq_some_iff.mp hc
  exact silent_of_nonBlank (h.caption text htext) hcaption

theorem silent_labelText (h : o.Plain) {label : String} (hl : o.labelText? = some label) :
    Silent label := by
  simp only [TableOptions.labelText?, Option.ite_none_right_eq_some] at hl
  obtain ⟨text, htext, hlabel⟩ := Option.bind_eq_some_iff.mp hl.2
  exact silent_of_nonBlank (h.label text htext) hlabel

theorem silent_caption (h : o.Plain) {caption : String} (hc : o.captionText? = some caption) :
    Silent ("\\caption" ++ braced caption) :=
  (silent_plainCommand (by decide)).append (silent_captionText h hc).braced

theorem silent_label (h : o.Plain) {label : String} (hl : o.labelText? = some label) :
    Silent ("\\label" ++ braced label) :=
  (silent_plainCommand (by decide)).append (silent_labelText h hl).braced

theorem silent_ending (environment : String) (h : '\\' ∉ environment.toList) :
    Silent (ending environment) :=
  (silent_plainCommand (by decide)).append (Silent.of_notMem h).braced

theorem silent_closingLines (h : o.Plain) : ∀ l ∈ o.closingLines, Silent l := by
  intro l hl
  unfold TableOptions.closingLines at hl
  split_ifs at hl with hlong hfloat hcenter
  · cases hl
  · simp only [List.mem_append, Option.mem_toList, Option.map_eq_some_iff,
      List.mem_singleton] at hl
    rcases hl with (⟨caption, hcaption, rfl⟩ | ⟨label, hlabel, rfl⟩) | rfl
    · exact silent_caption h hcaption
    · exact silent_label h hlabel
    · exact silent_ending "table" (by decide)
  · rw [List.mem_singleton.mp hl]
    exact silent_ending "center" (by decide)
  · cases hl

theorem silent_longCaption (h : o.Plain) : Silent (unlines (longCaption o)) := by
  unfold longCaption
  split
  next caption hlong hcaption =>
    have hlabel : Silent ((o.labelText?.map fun label => "\\label" ++ braced label).getD "") := by
      cases hl : o.labelText? with
      | none => exact silent_empty
      | some label => exact silent_label h hl
    rw [unlines_singleton, String.append_assoc]
    exact ((silent_caption h hcaption).append hlabel).append silent_rowEnd
  next => exact silent_empty

theorem emits_environment (o : TableOptions) : Emits (beginning (tabularEnvironment o)) fun w =>
    o.longTable = true ∧ w = beginning "longtable" := by
  unfold tabularEnvironment
  cases o.longTable with
  | true => exact (emits_command (by decide)).congr fun _ _ => by simp
  | false =>
    have hsilent : Silent (beginning "tabular") := silent_plainCommand (by decide)
    exact hsilent.congr fun _ _ => by simp

theorem silent_spec (ht : ∀ c ∈ t.columns, Silent c.token) : Silent t.spec := by
  unfold TabularColumns.spec
  split
  · exact (Silent.of_notMem (by decide)).append
      (Silent.join fun c hc => (ht c hc).append (Silent.of_notMem (by decide)))
  · exact Silent.join ht

/-- The commands of a table are those of its environment and of its body. -/
theorem contains_tabular (ho : o.Plain) (ht : ∀ c ∈ t.columns, Silent c.token)
    (hbody : Emits (unlines body) B) {w : String} (hw : Watched w) :
    Contains (tabular o t body) w ↔ (o.longTable = true ∧ w = beginning "longtable") ∨ B w := by
  have hopening := silent_unlines (silent_openingLines o)
  have hbegin : Emits (unlines [beginning (tabularEnvironment o) ++ braced t.spec]) fun w =>
      o.longTable = true ∧ w = beginning "longtable" := by
    rw [unlines_singleton]
    exact ((emits_environment o).append_silent (silent_spec ht).braced).append_silent silent_newline
  have hend : Silent (unlines (ending (tabularEnvironment o) :: o.closingLines)) := by
    refine silent_unlines (List.forall_mem_cons.mpr ⟨?_, silent_closingLines ho⟩)
    unfold tabularEnvironment
    split <;> exact silent_ending _ (by decide)
  have hlines : unlines (o.openingLines ++ [beginning (tabularEnvironment o) ++ braced t.spec] ++
      longCaption o ++ body ++ [ending (tabularEnvironment o)] ++ o.closingLines) =
        unlines o.openingLines ++
          (unlines [beginning (tabularEnvironment o) ++ braced t.spec] ++
            unlines (longCaption o) ++ unlines body ++
              unlines (ending (tabularEnvironment o) :: o.closingLines)) := by
    simp only [← unlines_append, List.append_assoc, List.singleton_append]
  unfold tabular
  dsimp only
  rw [contains_trimEnd hw, hlines]
  exact (hopening.append_emits (((hbegin.append_silent (silent_longCaption ho)).append
    hbody).append_silent hend)).contains hw

end Table

section Rules

variable {l : HorizontalLine} {cols : Nat} {style : LineStyle} {w : String}

/-- The commands of typographic rules. -/
def ruleCommands : List String := ["\\toprule", "\\midrule", "\\cmidrule", "\\bottomrule"]

/-- The command of a line, if it is a typographic rule. -/
def ruleOf? (l : HorizontalLine) (cols : Nat) : Option String :=
  match l.style, l.bounds? cols with
  | .normal, _ => none
  | .top, _ => some "\\toprule"
  | .bottom, _ => some "\\bottomrule"
  | .mid, none => some "\\midrule"
  | .mid, some _ => some "\\cmidrule"

theorem mem_ruleCommands (h : ruleOf? l cols = some w) : w ∈ ruleCommands := by
  unfold ruleOf? at h
  split at h <;> cases h <;> decide

theorem emits_line (l : HorizontalLine) (cols : Nat) :
    Emits (l.latex cols) (ruleOf? l cols = some ·) := by
  have hbounds (a b : Nat) : Silent (braced s!"{a}-{b}") := by
    have h : Silent (toString a ++ "-" ++ toString b) :=
      ((silent_toString a).append (Silent.of_notMem (by decide))).append (silent_toString b)
    exact h.braced
  unfold HorizontalLine.latex ruleOf?
  cases l.style with
  | top => exact (emits_command (u := "\\toprule") (by decide)).congr fun _ _ => by simp [eq_comm]
  | bottom =>
    exact (emits_command (u := "\\bottomrule") (by decide)).congr fun _ _ => by simp [eq_comm]
  | mid =>
    cases l.bounds? cols with
    | none => exact (emits_command (by decide)).congr fun _ _ => by simp [eq_comm]
    | some bounds =>
      have hrule : Silent ("(lr)" ++ braced s!"{bounds.1}-{bounds.2}") :=
        (Silent.of_notMem (by decide)).append (hbounds _ _)
      have hcommand := (emits_command (u := "\\cmidrule") (by decide)).append_silent hrule
      rw [← String.append_assoc] at hcommand
      exact hcommand.congr fun _ _ => by simp [eq_comm]
  | normal =>
    cases l.bounds? cols with
    | none =>
      have hline : Silent "\\hline" := silent_plainCommand (by decide)
      exact hline.congr fun _ _ => by simp
    | some bounds =>
      have hline : Silent ("\\cline" ++ braced s!"{bounds.1}-{bounds.2}") :=
        (silent_plainCommand (by decide)).append (hbounds _ _)
      exact hline.congr fun _ _ => by simp

theorem emits_boundary (g : Grid) (row : Nat) (style : LineStyle) :
    Emits (unlines (g.boundaryText? row style).toList) fun w =>
      ∃ l ∈ g.boundaryLines row style, ruleOf? l g.cols = some w := by
  unfold Grid.boundaryText?
  dsimp only
  split
  next hnone =>
    rw [List.isEmpty_iff.mp hnone]
    exact silent_empty.congr fun _ _ => by simp
  next =>
    rw [Option.toList_some, unlines_singleton]
    exact (Emits.intercalate (Silent.of_notMem (by decide))
      fun l _ => emits_line l g.cols).append_silent silent_newline

theorem style_of_mem_boundaryLines (h : l ∈ g.boundaryLines row style) : l.style = style := by
  unfold Grid.boundaryLines at h
  dsimp only at h
  split at h
  · obtain ⟨bounds, -, rfl⟩ := List.mem_map.mp h
    rfl
  · rw [List.mem_singleton.mp h]
    rfl

/-- Plain lines need no package. -/
theorem silent_boundary (g : Grid) (row : Nat) :
    Silent (unlines (g.boundaryText? row .normal).toList) := by
  refine (emits_boundary g row .normal).congr fun w _ => ?_
  rw [iff_false]
  rintro ⟨l, hl, hrule⟩
  simp [ruleOf?, style_of_mem_boundaryLines hl] at hrule

end Rules

section Body

variable {first last : List String} {below : Nat → List String} {F L : String → Prop}
  {P : Nat → String → Prop}

theorem emits_rowsBetween (hg : g.Plain) (hcolors : g.ParsedColors) (h : g.Layout R) (hf : g.Fits)
    (hfirst : Emits (unlines first) F) (hlast : Emits (unlines last) L)
    (hbelow : ∀ row, Emits (unlines (below row)) (P row)) :
    Emits (unlines (rowsBetween first last t g below)) fun w =>
      (F w ∨ ∃ row < g.rows, (∃ u ∈ g.rowUnits row, u.Emitted w) ∨ P row w) ∨ L w := by
  have hrow : ∀ row ∈ List.range g.rows, Emits (unlines (rowLine t g row :: below row)) fun w =>
      (∃ u ∈ g.rowUnits row, u.Emitted w) ∨ P row w := by
    intro row hr
    rw [← List.singleton_append, unlines_append, unlines_singleton]
    exact (emits_rowLine hg hcolors h hf (List.mem_range.mp hr)).append (hbelow row)
  rw [rowsBetween, unlines_append, unlines_append, unlines_flatMap]
  exact ((hfirst.append (Emits.join hrow)).append hlast).congr fun w _ => by
    simp only [List.mem_range]

end Body

end Latex

/-- The package commands of a tabular source, apart from typographic rules. -/
def Grid.Emitted (g : Grid) (o : TableOptions) (w : String) : Prop :=
  (o.longTable = true ∧ w = beginning "longtable") ∨
    ∃ row < g.rows, ∃ col < g.cols, (g.cellAt row col).hidden = false ∧
      (g.cellAt row col).Emitted w

namespace Latex

variable {specs : ColumnSpecs} {w : String}

theorem contains_plainTable (hg : g.Plain) (hcolors : g.ParsedColors) (ho : o.Plain)
    (hs : ∀ s ∈ specs, s.Admitted) (h : g.Layout R) (hf : g.Fits) (hw : Watched w) :
    Contains (plainTable g specs o) w ↔ g.Emitted o w := by
  have hfirst : Silent (unlines (if o.horizontalRules then ["\\hline"] else [])) := by
    refine silent_unlines fun l hl => ?_
    have hline : l = "\\hline" := by split at hl <;> simp_all
    exact hline ▸ silent_plainCommand (by decide)
  have hbelow (row : Nat) : Silent (unlines
      (if o.horizontalRules then (g.boundaryText? row .normal).toList else [])) := by
    split
    · exact silent_boundary g row
    · exact silent_empty
  have hlast : Silent (unlines []) := silent_empty
  have hbody := emits_rowsBetween (t := ⟨specs.resolve .plain g.cols, o.verticalRules⟩)
    hg hcolors h hf hfirst hlast hbelow
  rw [plainTable_eq, contains_tabular ho (silent_resolve hs) hbody hw, Grid.Emitted,
    ← exists_unit_emitted_iff h hf]
  simp

/-- The upper rule always stands. -/
theorem contains_rulesTable (hg : g.Plain) (hcolors : g.ParsedColors) (ho : o.Plain)
    (hs : ∀ s ∈ specs, s.Admitted) (h : g.Layout R) (hf : g.Fits) :
    Contains (rulesTable g specs o) "\\toprule" ∧ ∀ w, Watched w → w ∉ ruleCommands →
      (Contains (rulesTable g specs o) w ↔ g.Emitted o w) := by
  have hrule (command : String) (hcommand : command ∈ packageCommands) :
      Emits (unlines [command]) (· = command) := by
    rw [unlines_singleton]
    exact (emits_command hcommand).append_silent silent_newline
  have hbelow (row : Nat) : Emits (unlines (if row + 1 < g.rows && (row = 0 || o.horizontalRules)
      then (g.boundaryText? row .mid).toList else [])) fun w =>
        (row + 1 < g.rows && (row = 0 || o.horizontalRules)) = true ∧
          ∃ l ∈ g.boundaryLines row .mid, ruleOf? l g.cols = some w := by
    split
    next hdrawn => exact (emits_boundary g row .mid).congr fun _ _ => by simp [hdrawn]
    next hdrawn => exact silent_empty.congr fun _ _ => by simp [hdrawn]
  have hbody := emits_rowsBetween (t := ⟨specs.resolve .rules g.cols, false⟩) hg hcolors h hf
    (hrule "\\toprule" (by decide)) (hrule "\\bottomrule" (by decide)) hbelow
  have hcontains {w : String} (hw : Watched w) :=
    contains_tabular (t := ⟨specs.resolve .rules g.cols, false⟩) ho (silent_resolve hs) hbody hw
  constructor
  · exact (hcontains (.command (by decide))).mpr (.inr (.inl (.inl rfl)))
  · intro w hw hno
    have hrules : w ≠ "\\toprule" ∧ w ≠ "\\bottomrule" := by
      constructor <;> rintro rfl <;> exact hno (by decide)
    have hmid (row : Nat) : ¬∃ l ∈ g.boundaryLines row .mid, ruleOf? l g.cols = some w :=
      fun ⟨_, _, hl⟩ => hno (mem_ruleCommands hl)
    rw [Grid.Emitted, ← exists_unit_emitted_iff h hf]
    refine (hcontains hw).trans ?_
    simp [hrules, hmid]

end Latex
end LatexTable
