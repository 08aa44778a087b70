import LatexTable.Proofs.Check.Errors
import LatexTable.Proofs.Color
import LatexTable.Proofs.Latex.UnitReader
import LatexTable.Proofs.Latex.RowTiling
import LatexTable.Proofs.Session.Reachable
import LatexTable.Proofs.Text.Scan
/-!
The units of a table whose check reports no error. Everything that is written around a text closes
what it opens, so a unit is closed unless the text ends in a pending backslash and stands in a
group: the backslash then takes away the brace that closes the group.
-/
namespace LatexTable
open Latex Text

/-- Whether a group closes right behind the text of a cell that is written in a column. -/
def TabularColumns.closesBehind (t : TabularColumns) (col : Nat) (c : Cell) : Bool :=
  c.style.isItalic || c.style.isBold || c.style.foreground.isSome || 1 < c.rowSpan ||
    (1 < c.colSpan || t.overridesAlignment col c.style)

/-- Whether the text of the unit escapes the brace that closes its innermost group. -/
def RowUnit.dangles (t : TabularColumns) : RowUnit → Bool
  | .visible col c => pending false (trimmed c.text.toList) && t.closesBehind col c
  | .continuation _ _ => false

/-- A source text around a text that is closed by itself: `p` tells that the text ends in a pending
backslash, `w` that it stands in a group. -/
def Holds (s : String) (p w : Bool) : Prop :=
  Reads s.toList (if p && w then 1 else 0) (p && !w)

variable {s command : String} {color : Color} {c : Cell} {p w b : Bool}

namespace Latex

theorem toList_braced : (braced s).toList = '\x7b' :: (s.toList ++ ['\x7d']) := by simp [braced]

theorem isPlain_of_mem_digits {d : Char} {k : Nat} (h : d ∈ digits k) : isPlain d = true :=
  isPlain_of (by decide) (isDigit_of_mem_digits h)

theorem reads_braced (h : ∀ c ∈ s.toList, isPlain c = true) : Reads (braced s).toList 0 false := by
  rw [toList_braced]
  exact (Reads.plain h).group

theorem reads_arguments (h : ∃ s, Color.parse s = .ok color) :
    Reads color.arguments.toList 0 false := by
  obtain ⟨s, hs⟩ := h
  have hword : ∀ c ∈ color.word.toList, isPlain c = true := fun c hc =>
    isPlain_of (by decide) (Color.isColorChar_of_parse hs c hc)
  cases color with
  | named expression => exact reads_braced hword
  | html digits =>
    have hshape : (Color.html digits).arguments.toList =
        "[HTML]".toList ++ (braced digits).toList := by simp [Color.arguments, braced]
    rw [hshape]
    exact (Reads.plain (List.all_eq_true.mp (by decide))).append (reads_braced hword)

theorem reads_colored (hcommand : Reads command.toList 0 false)
    (h : ∃ s, Color.parse s = .ok color) : Reads (command ++ color.arguments).toList 0 false := by
  rw [String.toList_append]
  exact hcommand.append (reads_arguments h)

end Latex

namespace Holds

theorem of_closed (h : Closed s) : Holds (trim s) (pending false (trimmed s.toList)) false := by
  have htrim := (Reads.of_closed h).trim
  rw [← toList_trim] at htrim ⊢
  simpa [Holds] using htrim

/-- The argument of a command is a group. -/
theorem argument (h : Holds s p w) (hcommand : Reads command.toList 0 false) :
    Holds (command ++ braced s) p true := by
  have hgroup := hcommand.append h.group
  rw [← toList_braced, ← String.toList_append] at hgroup
  unfold Holds
  convert hgroup using 1 <;> cases p <;> cases w <;> rfl

theorem argument_if (h : Holds s p w) (hcommand : b = true → Reads command.toList 0 false) :
    Holds (if b then command ++ braced s else s) p (w || b) := by
  cases b with
  | true => simpa using h.argument (hcommand rfl)
  | false => simpa using h

end Holds

namespace CellStyle.ParsedColors

/-- Emphasis and colour are groups around the trimmed text. -/
theorem holds_emphasized (h : c.style.ParsedColors) (hclosed : Closed c.text) :
    Holds c.emphasized (pending false (trimmed c.text.toList))
      (c.style.isItalic || c.style.isBold || c.style.foreground.isSome) := by
  have htext := Holds.of_closed hclosed
  unfold Cell.emphasized
  split
  next hblank =>
    rw [← toList_trim, nonBlank?_eq_none.mp hblank]
    exact Reads.plain (by simp)
  next text hnonBlank =>
    obtain ⟨rfl, -⟩ := nonBlank?_eq_some.mp hnonBlank
    have hitalic : Holds (if c.style.isItalic then "\\textit" ++ braced (trim c.text)
        else trim c.text) _ _ := htext.argument_if fun _ => Reads.name (by decide)
    have hbold : Holds (if c.style.isBold then "\\textbf" ++ braced _ else _) _ _ :=
      hitalic.argument_if fun _ => Reads.name (by decide)
    rw [Bool.false_or] at hbold
    dsimp only
    split
    next hcolor => simpa [hcolor] using hbold
    next color hcolor =>
      have hname : Reads "\\textcolor".toList 0 false := Reads.name (by decide)
      simpa [hcolor] using hbold.argument (reads_colored hname (h.foreground color hcolor))

theorem reads_multirow (c : Cell) : Reads ("\\multirow" ++
    (c.style.valign.map fun v => bracketed v.multirowLetter.toString).getD "" ++
      braced (toString c.rowSpan) ++ braced "*").toList 0 false := by
  have hposition : ∀ d ∈ ((c.style.valign.map fun v =>
      bracketed v.multirowLetter.toString).getD "").toList, isPlain d = true := by
    cases c.style.valign with
    | none => simp
    | some v => cases v <;> exact List.all_eq_true.mp (by decide)
  simp only [String.toList_append]
  exact (((Reads.name (by decide)).append (Reads.plain hposition)).append
    (reads_braced fun d => isPlain_of_mem_digits)).append
      (reads_braced (List.all_eq_true.mp (by decide)))

theorem holds_spanned (h : c.style.ParsedColors) (hclosed : Closed c.text) :
    Holds (spanned c) (pending false (trimmed c.text.toList))
      (c.style.isItalic || c.style.isBold || c.style.foreground.isSome || 1 < c.rowSpan) := by
  have hspan := (h.holds_emphasized hclosed).argument_if (b := 1 < c.rowSpan)
    fun _ => reads_multirow c
  unfold spanned
  simpa only [decide_eq_true_eq] using hspan

theorem holds_body (h : c.style.ParsedColors) (hclosed : Closed c.text) :
    Holds c.body (pending false (trimmed c.text.toList))
      (c.style.isItalic || c.style.isBold || c.style.foreground.isSome || 1 < c.rowSpan) := by
  have hspan := h.holds_spanned hclosed
  unfold Holds at hspan ⊢
  rw [toList_body]
  cases hcolor : c.style.background with
  | none => exact hspan
  | some color =>
    have hblank : Reads " ".toList 0 false := Reads.plain (List.all_eq_true.mp (by decide))
    have hname : Reads "\\cellcolor".toList 0 false := Reads.name (by decide)
    have hcommand := reads_colored hname (h.background color hcolor)
    have hfill := (hcommand.append hblank).append hspan
    simpa only [String.toList_append, zero_add] using hfill

theorem reads_fill (h : c.style.ParsedColors) : Reads (c.fill?.getD "").toList 0 false := by
  unfold Cell.fill?
  cases hcolor : c.style.background with
  | none => exact Reads.plain (by simp)
  | some color => exact reads_colored (Reads.name (by decide)) (h.background color hcolor)

end CellStyle.ParsedColors

namespace RowUnit

variable {t : TabularColumns} {u : RowUnit} {col width : Nat} {style : CellStyle}

theorem reads_multicolumn (k : Nat) (h : 1 < width ∨ t.overridesAlignment col style = true) :
    Reads ("\\multicolumn" ++ braced (toString k) ++ braced (t.unitSpec col width style)).toList
      0 false := by
  have hspec : ∀ d ∈ (t.unitSpec col width style).toList, isPlain d = true := by
    have hletters : ∀ d ∈ ['l', 'c', 'r', '|'], isPlain d = true :=
      List.all_eq_true.mp (by decide)
    exact fun d hd => hletters d (mem_unitSpec h d hd)
  simp only [String.toList_append]
  exact ((Reads.name (by decide)).append (reads_braced fun d => isPlain_of_mem_digits)).append
    (reads_braced hspec)

theorem holds_visible (h : c.style.ParsedColors) (hclosed : Closed c.text) :
    Holds (t.unitText (.visible col c)) (pending false (trimmed c.text.toList))
      (t.closesBehind col c) := by
  have hwidth : decide (1 < (RowUnit.visible col c).width) = decide (1 < c.colSpan) := by
    simp [width, cell]
  have hown (hown : (1 < (RowUnit.visible col c).width || t.overridesAlignment col c.style) = true) :
      1 < (RowUnit.visible col c).width ∨ t.overridesAlignment col c.style = true := by
    simpa using hown
  have hunit : Holds (t.unitText (.visible col c)) _ _ :=
    (h.holds_body hclosed).argument_if fun hb => reads_multicolumn _ (hown hb)
  rw [hwidth] at hunit
  exact hunit

theorem holds_continuation (h : c.style.ParsedColors) :
    Holds (t.unitText (.continuation col c)) false (1 < (RowUnit.continuation col c).width) := by
  have hfill : Holds (c.fill?.getD "") false false := h.reads_fill
  have hspec (hwide : decide (1 < (RowUnit.continuation col c).width) = true) :
      1 < (RowUnit.continuation col c).width ∨ t.overridesAlignment col c.style = true :=
    .inl (of_decide_eq_true hwide)
  have hunit := hfill.argument_if fun hwide =>
    reads_multicolumn (RowUnit.continuation col c).width (hspec hwide)
  simp only [Bool.false_or, decide_eq_true_eq] at hunit
  exact hunit

/-- A unit keeps one brace open exactly when its text escapes the brace behind it. -/
theorem reads_unitText (hparsed : u.cell.style.ParsedColors)
    (hclosed : ∀ col c, u = .visible col c → Closed c.text) :
    ∃ e, Reads (t.unitText u).toList (if u.dangles t then 1 else 0) e := by
  cases u with
  | visible col c => exact ⟨_, holds_visible hparsed (hclosed col c rfl)⟩
  | continuation col owner => exact ⟨_, holds_continuation hparsed⟩

end RowUnit

namespace Session

variable {s t : Session} {row : Nat}

/-- After every run, a check without errors leaves units in which no `&` is bare and no brace is
closed before it is opened, and one way for a unit to keep a brace open: its text ends in a pending
backslash, and a group closes right behind it. -/
theorem clean_units_closed (hs : Start s) (hrun : Run s t) (hparsed : t.grid.ParsedColors)
    (dialect : Dialect) (hclean : (checkTable t.grid t.columns dialect t.options).hasErrors = false)
    (hrow : row < t.grid.rows) (columns : TabularColumns) :
    ∀ u ∈ t.grid.rowUnits row,
      (∃ e, Reads (columns.unitText u).toList (if u.dangles columns then 1 else 0) e) ∧
        (Closed (columns.unitText u) ↔ u.dangles columns = false) := by
  have hgrid := (hs.consistent.run hrun).grid
  obtain ⟨-, -, hscans⟩ := checkTable_hasErrors_eq_false.mp hclean
  intro u hu
  have hreads : ∃ e, Reads (columns.unitText u).toList (if u.dangles columns then 1 else 0) e := by
    rcases (hgrid.layout.mem_rowUnits_iff hgrid.fits hrow).mp hu with hu | hu
    · obtain ⟨col, hcol, rfl⟩ := List.mem_map.mp hu
      simp only [List.mem_filter, List.mem_range, Bool.not_eq_true'] at hcol
      refine RowUnit.reads_unitText (hparsed row col) ?_
      rintro _ _ ⟨⟩
      exact Text.closed_iff.mpr (hscans row hrow col hcol.1 hcol.2)
    · obtain ⟨r, -, rfl⟩ := List.mem_map.mp hu
      refine RowUnit.reads_unitText (hparsed r.minRow r.minCol) ?_
      rintro _ _ ⟨⟩
  refine ⟨hreads, ?_⟩
  obtain ⟨e, hreads⟩ := hreads
  rw [hreads.closed_iff]
  cases u.dangles columns <;> simp

theorem clean_units_closed_colored :
    let t := (((blank 1 2).after (.setText 0 0 "a\\")).after (.setText 0 1 "b")).after
      (.beginSelection 0 1) |>.after (.applyStyle (.foreground (some (.named "red"))))
    ∀ u ∈ t.grid.rowUnits 0,
      (∃ e, Reads ((TabularColumns.mk [] true).unitText u).toList
        (if u.dangles ⟨[], true⟩ then 1 else 0) e) ∧
        (Closed ((TabularColumns.mk [] true).unitText u) ↔ u.dangles ⟨[], true⟩ = false) := by
  refine clean_units_closed (.blank 1 2 ?_) (.edit _ (.edit _ (.edit _ (.edit _ .nil ?_) ?_) ?_) ?_)
    (Grid.parsedColors_of_text ?_) .plain (checkTable_hasErrors_eq_false.mpr ?_) ?_ _
  all_goals decide +kernel

/-- A check without errors does not make the units closed: the backslash takes the brace of the
bold face away. -/
theorem clean_check_open_unit :
    let t := ((blank 1 1).after (.setText 0 0 "\\")).after (.applyStyle .toggleBold)
    Run (blank 1 1) t ∧ t.grid.ParsedColors ∧
      (checkTable t.grid t.columns .plain t.options).hasErrors = false ∧
      ∃ u ∈ t.grid.rowUnits 0, ¬Closed ((TabularColumns.mk (t.columns.resolve .plain t.grid.cols)
        t.options.verticalRules).unitText u) := by
  refine ⟨.edit _ (.edit _ .nil ?_) ?_, Grid.parsedColors_of_text ?_,
    checkTable_hasErrors_eq_false.mpr ?_,
    .visible 0 { text := "\\", style := { bold := some true } }, ?_, fun h => ?_⟩
  · decide
  · decide
  · decide +kernel
  · decide +kernel
  · decide +kernel
  · exact absurd h.settled (by decide +kernel)

end Session
end LatexTable
