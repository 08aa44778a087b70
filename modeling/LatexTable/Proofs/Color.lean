import LatexTable.Proofs.Grid.View
import LatexTable.Proofs.Text.Blank
import LatexTable.Proofs.Text.Pieces
/-!
Parsed colours. They hold letters, digits and exclamation marks only. The text of a colour has no
white space to lose and no letter to raise any more, so it is parsed to the same colour again.
-/
namespace LatexTable
open Text

namespace Color

variable {cs piece digits : List Char} {pieces : List (List Char)} {c : Char} {s : String}
  {color : Color}

/-- The characters of colour names, percentages and digits. -/
def isColorChar (c : Char) : Bool := isAsciiLetter c || isAsciiDigit c || c = '!'

/-- The text of a colour without marks around it. -/
def word : Color → String
  | .named expression => expression
  | .html digits => digits

theorem mem_splitAt (h : c ∈ cs) : c = '!' ∨ ∃ piece ∈ splitAt '!' cs, c ∈ piece := by
  obtain ⟨first, rest, hsplit⟩ := List.exists_cons_of_ne_nil (splitAt_ne_nil '!' cs)
  rw [eq_joined_of_splitAt hsplit, joined, List.mem_append, List.mem_flatMap] at h
  rw [hsplit]
  rcases h with h | ⟨piece, hp, h⟩
  · exact .inr ⟨first, List.mem_cons_self, h⟩
  · rcases List.mem_cons.mp h with rfl | h
    · exact .inl rfl
    · exact .inr ⟨piece, List.mem_cons_of_mem _ hp, h⟩

theorem isColorChar_of_isName (h : isName piece = true) (hc : c ∈ piece) :
    isColorChar c = true := by
  cases piece with
  | nil => cases hc
  | cons d ds =>
    simp only [isName, Bool.and_eq_true, List.all_eq_true, Bool.or_eq_true] at h
    simp only [isColorChar, Bool.or_eq_true]
    rcases List.mem_cons.mp hc with rfl | hc
    · exact .inl (.inl h.1)
    · exact .inl (h.2 c hc)

theorem isColorChar_of_isPercentage (h : isPercentage piece = true) (hc : c ∈ piece) :
    isColorChar c = true := by
  simp only [isPercentage, Bool.and_eq_true, List.all_eq_true] at h
  simp [isColorChar, h.2 c hc]

theorem isColorChar_of_areMixes (h : areMixes pieces = true) :
    ∀ piece ∈ pieces, ∀ c ∈ piece, isColorChar c = true := by
  induction pieces using areMixes.induct with
  | case1 => simp
  | case2 percentage =>
    simp only [List.mem_singleton, forall_eq]
    exact fun c => isColorChar_of_isPercentage h
  | case3 percentage next rest ihRest ihNext =>
    rw [areMixes, Bool.and_eq_true] at h
    rw [List.forall_mem_cons]
    refine ⟨fun c => isColorChar_of_isPercentage h.1, ?_⟩
    by_cases hname : isName next = true
    · rw [if_pos hname] at h
      rw [List.forall_mem_cons]
      exact ⟨fun c => isColorChar_of_isName hname, ihRest h.2⟩
    · rw [if_neg hname] at h
      exact ihNext h.2

theorem isColorChar_of_isExpression (h : isExpression cs = true) (hc : c ∈ cs) :
    isColorChar c = true := by
  unfold isExpression at h
  split at h
  next => cases h
  next name mixes hpieces =>
    rw [Bool.and_eq_true] at h
    rcases mem_splitAt hc with rfl | ⟨piece, hp, hc⟩
    · rfl
    · rw [hpieces] at hp
      rcases List.mem_cons.mp hp with rfl | hp
      · exact isColorChar_of_isName h.1 hc
      · exact isColorChar_of_areMixes h.2 piece hp c hc

theorem toNat_lt_of_isHexDigit (h : isHexDigit c = true) : c.toNat < 128 := by
  simp only [isHexDigit, isAsciiDigit, Bool.or_eq_true, Bool.and_eq_true, decide_eq_true_eq] at h
  rcases h with (⟨-, h⟩ | ⟨-, h⟩) | ⟨-, h⟩
  · exact lt_of_le_of_lt (show c.toNat ≤ '9'.toNat from h) (by decide)
  · exact lt_of_le_of_lt (show c.toNat ≤ 'f'.toNat from h) (by decide)
  · exact lt_of_le_of_lt (show c.toNat ≤ 'F'.toNat from h) (by decide)

theorem toNat_lt_of_isColorChar (h : isColorChar c = true) : c.toNat < 128 := by
  simp only [isColorChar, isAsciiLetter, isAsciiDigit, Bool.or_eq_true, Bool.and_eq_true,
    decide_eq_true_eq] at h
  rcases h with ((⟨-, h⟩ | ⟨-, h⟩) | ⟨-, h⟩) | rfl
  · exact lt_of_le_of_lt (show c.toNat ≤ 'z'.toNat from h) (by decide)
  · exact lt_of_le_of_lt (show c.toNat ≤ 'Z'.toNat from h) (by decide)
  · exact lt_of_le_of_lt (show c.toNat ≤ '9'.toNat from h) (by decide)
  · decide

theorem isColorChar_of_isHexDigit (h : isHexDigit c = true) : isColorChar c = true :=
  forall_ascii (P := fun c => isHexDigit c = true → isColorChar c = true) (by decide)
    (toNat_lt_of_isHexDigit h) h

/-- A raised digit stays as it is. -/
theorem toUpper_hexDigit (h : isHexDigit c = true) : isHexDigit c.toUpper = true ∧
    c.toUpper.toUpper = c.toUpper ∧ isBlank c.toUpper = false :=
  forall_ascii (P := fun c => isHexDigit c = true → isHexDigit c.toUpper = true ∧
    c.toUpper.toUpper = c.toUpper ∧ isBlank c.toUpper = false) (by decide)
      (toNat_lt_of_isHexDigit h) h

theorem parse_eq_ok_iff : parse s = .ok color ↔ parse? s = some color := by
  unfold parse
  cases parse? s <;> simp

/-- Hexadecimal digits are looked for first. -/
theorem parse_eq_ok : parse s = .ok color ↔
    (∃ digits, hexDigits? (trim s).toList = some digits ∧
      color = .html (String.ofList (digits.map Char.toUpper))) ∨
    (hexDigits? (trim s).toList = none ∧ isExpression (trim s).toList = true ∧
      color = .named (trim s)) := by
  rw [parse_eq_ok_iff]
  unfold parse?
  dsimp only
  split
  next digits hdigits => simp [-toList_trim, hdigits, eq_comm (b := color)]
  next hnone => simp [-toList_trim, hnone, eq_comm (b := color)]

theorem hexDigits?_eq_some : hexDigits? cs = some digits ↔
    digits = (if cs.head? = some '#' then cs.tail else cs) ∧ digits.length = 6 ∧
      (∀ c ∈ digits, isHexDigit c = true) ∧
        (cs.head? = some '#' ∨ ∃ c ∈ digits, isAsciiDigit c = true) := by
  simp only [hexDigits?, Option.ite_none_right_eq_some, Option.some.injEq, Bool.and_eq_true,
    decide_eq_true_eq, Bool.or_eq_true, List.all_eq_true, List.any_eq_true]
  constructor
  · rintro ⟨⟨⟨hlength, hhex⟩, hmark⟩, rfl⟩
    exact ⟨rfl, hlength, hhex, hmark⟩
  · rintro ⟨rfl, hlength, hhex, hmark⟩
    exact ⟨⟨⟨hlength, hhex⟩, hmark⟩, rfl⟩

theorem isHexDigit_of_parse {digits : String} (h : parse s = .ok (.html digits)) :
    ∀ c ∈ digits.toList, isHexDigit c = true := by
  obtain ⟨ds, hds, heq⟩ | ⟨-, -, heq⟩ := parse_eq_ok.mp h
  · obtain rfl := html.inj heq
    obtain ⟨-, -, hhex, -⟩ := hexDigits?_eq_some.mp hds
    intro c hc
    rw [String.toList_ofList] at hc
    obtain ⟨d, hd, rfl⟩ := List.mem_map.mp hc
    exact (toUpper_hexDigit (hhex d hd)).1
  · cases heq

/-- A parsed colour holds letters, digits and exclamation marks only. -/
theorem isColorChar_of_parse (h : parse s = .ok color) :
    ∀ c ∈ color.word.toList, isColorChar c = true := by
  cases color with
  | html digits => exact fun c hc => isColorChar_of_isHexDigit (isHexDigit_of_parse h c hc)
  | named expression =>
    obtain ⟨_, -, heq⟩ | ⟨-, hexpr, heq⟩ := parse_eq_ok.mp h
    · cases heq
    · obtain rfl := named.inj heq
      exact fun c => isColorChar_of_isExpression hexpr

theorem parse_text (h : parse s = .ok color) : parse color.text = .ok color := by
  obtain ⟨digits, hdigits, rfl⟩ | ⟨hnone, hexpr, rfl⟩ := parse_eq_ok.mp h
  · obtain ⟨-, hlength, hhex, -⟩ := hexDigits?_eq_some.mp hdigits
    have hupper : ∀ c ∈ digits.map Char.toUpper,
        isHexDigit c = true ∧ c.toUpper = c ∧ isBlank c = false := by
      intro c hc
      obtain ⟨d, hd, rfl⟩ := List.mem_map.mp hc
      exact toUpper_hexDigit (hhex d hd)
    have hblank : ∀ c ∈ '#' :: digits.map Char.toUpper, isBlank c = false := by
      rw [List.forall_mem_cons]
      exact ⟨by decide, fun c hc => (hupper c hc).2.2⟩
    have htext : (trim (text (.html (String.ofList (digits.map Char.toUpper))))).toList =
        '#' :: digits.map Char.toUpper := by
      have hmarked : (text (.html (String.ofList (digits.map Char.toUpper)))).toList =
          '#' :: digits.map Char.toUpper := by simp [text]
      rw [toList_trim, hmarked, trimmed_of_no_blank hblank]
    have hparse : hexDigits? ('#' :: digits.map Char.toUpper) = some (digits.map Char.toUpper) :=
      hexDigits?_eq_some.mpr ⟨rfl, by simpa using hlength, fun c hc => (hupper c hc).1, .inl rfl⟩
    have hfixed : (digits.map Char.toUpper).map Char.toUpper = digits.map Char.toUpper :=
      (List.map_congr_left fun c hc => (hupper c hc).2.1).trans (List.map_id _)
    exact parse_eq_ok.mpr (.inl ⟨_, htext ▸ hparse, by rw [hfixed]⟩)
  · refine parse_eq_ok.mpr (.inr ?_)
    simp only [text, trim_trim]
    exact ⟨hnone, hexpr, trivial⟩

end Color

/-- The colours of the style have been parsed. -/
structure CellStyle.ParsedColors (style : CellStyle) : Prop where
  foreground : ∀ color, style.foreground = some color → ∃ s, Color.parse s = .ok color
  background : ∀ color, style.background = some color → ∃ s, Color.parse s = .ok color

/-- All colours of the grid have been parsed. -/
def Grid.ParsedColors (g : Grid) : Prop := ∀ row col, (g.cellAt row col).style.ParsedColors

/-- Colours that their own texts give back have been parsed. -/
theorem Grid.parsedColors_of_text {g : Grid} (h : ∀ place ∈ g.places, ∀ color ∈
    (g.cellAt place.1 place.2).style.foreground.toList ++
      (g.cellAt place.1 place.2).style.background.toList,
    Color.parse color.text = .ok color) : g.ParsedColors := by
  intro row col
  by_cases hin : row < g.rows ∧ col < g.cols
  · have hcell := h (row, col) (mem_places.mpr hin)
    exact ⟨fun color hcolor => ⟨color.text, hcell color (by simp [hcolor])⟩,
      fun color hcolor => ⟨color.text, hcell color (by simp [hcolor])⟩⟩
  · rw [cellAt_of_not_lt hin]
    exact ⟨nofun, nofun⟩

/-- The colour is one of a visible cell. -/
def Grid.HasColor (g : Grid) (color : Color) : Prop :=
  ∃ row < g.rows, ∃ col < g.cols, (g.cellAt row col).hidden = false ∧
    ((g.cellAt row col).style.foreground = some color ∨
      (g.cellAt row col).style.background = some color)

theorem Grid.HasColor.parsed {g : Grid} {color : Color} (h : g.HasColor color)
    (hcolors : g.ParsedColors) : ∃ s, Color.parse s = .ok color := by
  obtain ⟨row, -, col, -, -, hcolor⟩ := h
  exact hcolor.elim ((hcolors row col).foreground color) ((hcolors row col).background color)

end LatexTable
