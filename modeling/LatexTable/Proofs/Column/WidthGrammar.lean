import LatexTable.Proofs.Column.Registry
import LatexTable.Proofs.Column.Width
/-!
The grammar of widths. A width is read without the white space around it, as a number or as a
number with a unit; a registry stores the widths that are read, and the width that a paragraph
column is written with is one of them again.
-/
namespace LatexTable
open Text

namespace WidthKind

/-- One decimal digit or more. -/
def Digits (cs : List Char) : Prop := cs ≠ [] ∧ ∀ c ∈ cs, isDecimalDigit c = true

/-- Digits, digits with a point and digits, or a point and digits. -/
inductive Number : List Char → Prop
  | whole {ds} : Digits ds → Number ds
  | decimal {ds fs} : Digits ds → Digits fs → Number (ds ++ '.' :: fs)
  | fraction {fs} : Digits fs → Number ('.' :: fs)

/-- A number, white space if any, and a unit. -/
def Dimension (cs : List Char) : Prop :=
  ∃ number blanks, ∃ unit ∈ ["pt", "mm", "cm", "in", "em", "ex", "bp", "pc", "dd", "cc", "sp",
      "\\linewidth", "\\textwidth", "\\columnwidth"],
    cs = number ++ (blanks ++ unit.toList) ∧ Number number ∧ ∀ c ∈ blanks, isBlank c = true

variable {cs blanks : List Char} {c : Char} {unit w : String}

theorem not_isDecimalDigit_point : isDecimalDigit '.' = false := by decide

/-- No white space is a digit: the runs of the two tables lie apart. -/
theorem not_isDecimalDigit_of_isBlank (h : isBlank c = true) : isDecimalDigit c = false := by
  have hapart : ∀ b ∈ blankRuns, ∀ d ∈ decimalDigitRuns, b.2 < d.1 ∨ d.2 < b.1 := by decide
  simp only [isBlank, List.any_eq_true, Bool.and_eq_true, decide_eq_true_eq] at h
  obtain ⟨b, hb, hlow, hhigh⟩ := h
  rw [← Bool.not_eq_true]
  intro hdigit
  simp only [isDecimalDigit, List.any_eq_true, Bool.and_eq_true, decide_eq_true_eq] at hdigit
  obtain ⟨d, hd, hlow', hhigh'⟩ := hdigit
  rcases hapart b hb d hd with hlt | hlt <;> omega

/-- Digits before a character that is none are what is taken from the text. -/
theorem takeWhile_digits (hcs : ∀ c ∈ cs, isDecimalDigit c = true) (rest : List Char)
    (hc : isDecimalDigit c = false) :
    (cs ++ c :: rest).takeWhile isDecimalDigit = cs ∧
      (cs ++ c :: rest).dropWhile isDecimalDigit = c :: rest := by
  rw [List.takeWhile_append_of_pos hcs, List.dropWhile_append_of_pos hcs]
  simp [hc]

theorem isNumber_whole (h : Digits cs) : isNumber cs = true := by
  have hdrop : cs.dropWhile isDecimalDigit = [] := List.dropWhile_eq_nil_iff.mpr h.2
  have htake : cs.takeWhile isDecimalDigit = cs := List.takeWhile_eq_self_iff.mpr h.2
  simp [isNumber, hdrop, htake, h.1]

/-- Digits, if any, before a point and digits. -/
theorem isNumber_pointed (hcs : ∀ c ∈ cs, isDecimalDigit c = true) {fs : List Char}
    (hfs : Digits fs) : isNumber (cs ++ '.' :: fs) = true := by
  obtain ⟨htake, hdrop⟩ := takeWhile_digits hcs fs not_isDecimalDigit_point
  simpa [isNumber, htake, hdrop, hfs.1] using hfs.2

theorem isNumber_iff : isNumber cs = true ↔ Number cs := by
  constructor
  · intro h
    have hwhole : ∀ c ∈ cs.takeWhile isDecimalDigit, isDecimalDigit c = true :=
      fun _ => List.mem_takeWhile_imp
    have hcs := List.takeWhile_append_dropWhile (p := isDecimalDigit) (l := cs)
    rw [← hcs]
    unfold isNumber at h
    dsimp only at h
    split at h
    next hnil =>
      rw [hnil, List.append_nil]
      exact .whole ⟨by simpa using h, hwhole⟩
    next c fs hrest =>
      simp only [Bool.and_eq_true, decide_eq_true_eq, List.all_eq_true, Bool.not_eq_true',
        List.isEmpty_eq_false_iff] at h
      obtain ⟨⟨rfl, hne⟩, hfs⟩ := h
      rw [hrest]
      rcases List.eq_nil_or_concat (cs.takeWhile isDecimalDigit) with hempty | ⟨ds, d, hds⟩
      · rw [hempty]
        exact .fraction ⟨hne, hfs⟩
      · exact .decimal ⟨by simp [hds], hwhole⟩ ⟨hne, hfs⟩
  · intro h
    cases h with
    | whole h => exact isNumber_whole h
    | decimal hds hfs => exact isNumber_pointed hds.2 hfs
    | fraction hfs => exact @isNumber_pointed [] (List.forall_mem_nil _) _ hfs

/-- No unit begins with a character of a number or with white space. -/
theorem unit_head (hunit : unit ∈ units) :
    ∃ c cs, unit.toList = c :: cs ∧ (isDecimalDigit c || c = '.') = false ∧ isBlank c = false := by
  have hall : (units.all fun unit => unit.toList.head?.any fun c =>
      !(isDecimalDigit c || c = '.') && !isBlank c) = true := by decide
  have hhead := List.all_eq_true.mp hall unit hunit
  simp only [Option.any_eq_true, Bool.and_eq_true, Bool.not_eq_true'] at hhead
  obtain ⟨c, hc, hplain⟩ := hhead
  obtain ⟨cs, hcs⟩ := List.head?_eq_some_iff.mp hc
  exact ⟨c, cs, hcs, hplain⟩

/-- The number ends where white space or the unit begins. -/
theorem stop_behind (hblanks : ∀ c ∈ blanks, isBlank c = true) (hunit : unit ∈ units) :
    ∃ c cs, blanks ++ unit.toList = c :: cs ∧ (isDecimalDigit c || c = '.') = false := by
  cases blanks with
  | nil =>
    obtain ⟨c, cs, hcs, hplain, -⟩ := unit_head hunit
    exact ⟨c, cs, hcs, hplain⟩
  | cons b blanks =>
    have hb := hblanks b List.mem_cons_self
    have hpoint : b ≠ '.' := by
      rintro rfl
      exact absurd hb (by decide)
    exact ⟨b, blanks ++ unit.toList, rfl, by simp [not_isDecimalDigit_of_isBlank hb, hpoint]⟩

theorem isDimension_iff : isDimension cs = true ↔ Dimension cs := by
  constructor
  · intro h
    obtain ⟨number, blanks, unit, hunit, hcs, hnumber, hblanks⟩ := exists_parts h
    exact ⟨number, blanks, unit, hunit, hcs, isNumber_iff.mp hnumber, hblanks⟩
  · rintro ⟨number, blanks, unit, hunit, rfl, hnumber, hblanks⟩
    have hchars : ∀ c ∈ number, (isDecimalDigit c || c = '.') = true := by
      intro c hc
      simpa using mem_of_isNumber (isNumber_iff.mpr hnumber) hc
    obtain ⟨c, cs, hcs, hstop⟩ := stop_behind hblanks hunit
    obtain ⟨d, ds, hds, -, hd⟩ := unit_head hunit
    have hnumberPart : numberPart (number ++ (blanks ++ unit.toList)) = number := by
      rw [numberPart, List.takeWhile_append_of_pos hchars, hcs]
      simp [hstop]
    have hrest : (number ++ (blanks ++ unit.toList)).dropWhile
        (fun c => isDecimalDigit c || c = '.') = blanks ++ unit.toList := by
      rw [List.dropWhile_append_of_pos hchars, hcs]
      simp [hstop]
    have hunitPart : dropBlanks (blanks ++ unit.toList) = unit.toList := by
      rw [dropBlanks, List.dropWhile_append_of_pos hblanks, hds]
      simp [hd]
    simp only [isDimension, hnumberPart, hrest, hunitPart, String.ofList_toList, Bool.and_eq_true,
      List.contains_iff_mem]
    exact ⟨isNumber_iff.mpr hnumber, hunit⟩

/-- A number alone has no unit. -/
theorem Number.not_dimension (h : Number cs) : ¬Dimension cs := by
  rintro ⟨number, blanks, unit, hunit, rfl, -, -⟩
  obtain ⟨c, rest, hrest, hplain, -⟩ := unit_head hunit
  have hc : c ∈ number ++ (blanks ++ unit.toList) := by simp [hrest]
  rw [Bool.or_eq_false_iff, decide_eq_false_iff_not] at hplain
  rcases mem_of_isNumber (isNumber_iff.mpr h) hc with hdigit | hpoint
  · simp [hdigit] at hplain
  · exact hplain.2 hpoint

theorem ofWidth?_eq_dimension_iff :
    ofWidth? w = some .dimension ↔ Dimension (trim w).toList := by
  rw [← isDimension_iff, ofWidth?]
  split
  next h => simp only [h]
  next h => split <;> simp [-toList_trim, h]

theorem ofWidth?_eq_ratio_iff : ofWidth? w = some .ratio ↔ Number (trim w).toList := by
  constructor
  · exact fun h => isNumber_iff.mp (isNumber_of_ratio h)
  · intro h
    have hdimension : isDimension (trim w).toList = false := by
      rw [← Bool.not_eq_true, isDimension_iff]
      exact h.not_dimension
    simp [-toList_trim, ofWidth?, hdimension, isNumber_iff.mpr h]

/-- What the reader of widths makes of a text. -/
structure ReadByGrammar (w : String) : Prop where
  ratio_iff : ofWidth? w = some .ratio ↔ Number (trim w).toList
  dimension_iff : ofWidth? w = some .dimension ↔ Dimension (trim w).toList
  none_iff : ofWidth? w = none ↔ ¬Number (trim w).toList ∧ ¬Dimension (trim w).toList

theorem readByGrammar (w : String) : ReadByGrammar w where
  ratio_iff := ofWidth?_eq_ratio_iff
  dimension_iff := ofWidth?_eq_dimension_iff
  none_iff := by
    rw [← ofWidth?_eq_ratio_iff, ← ofWidth?_eq_dimension_iff]
    cases ofWidth? w with
    | none => simp
    | some kind => cases kind <;> simp

end WidthKind

namespace ColumnSpec
open WidthKind

variable {w : String}

/-- The characters that end an argument of a column or divide columns, and that divide cells. -/
def marks : List Char := ['\x7b', '\x7d', '[', ']', ',', '&']

theorem dimension_share {cs : List Char} (h : Number cs) :
    Dimension (cs ++ "\\linewidth".toList) :=
  ⟨cs, [], "\\linewidth", by decide, rfl, h, by simp⟩

theorem not_isBlank_of_number {cs : List Char} (h : Number cs) : ∀ c ∈ cs, isBlank c = false := by
  intro c hc
  rw [← Bool.not_eq_true]
  intro hblank
  rcases mem_of_isNumber (isNumber_iff.mpr h) hc with hdigit | rfl
  · simp [not_isDecimalDigit_of_isBlank hblank] at hdigit
  · exact absurd hblank (by decide)

/-- A number alone becomes a share of the line, a dimension stays what it is. -/
theorem paragraphWidth_cases (h : (ofWidth? w).isSome = true) :
    (Number (trim w).toList ∧ paragraphWidth (trim w) = trim w ++ "\\linewidth") ∨
      (Dimension (trim w).toList ∧ paragraphWidth (trim w) = trim w) := by
  rw [paragraphWidth, ofWidth?_trim]
  obtain ⟨kind, hkind⟩ := Option.isSome_iff_exists.mp h
  cases kind with
  | ratio => exact .inl ⟨ofWidth?_eq_ratio_iff.mp hkind, by rw [if_pos hkind]⟩
  | dimension => exact .inr ⟨ofWidth?_eq_dimension_iff.mp hkind, by simp [hkind]⟩

/-- Nothing is trimmed off the width of a paragraph column. -/
theorem trim_paragraphWidth (h : (ofWidth? w).isSome = true) :
    trim (paragraphWidth (trim w)) = paragraphWidth (trim w) := by
  obtain ⟨hnumber, hshare⟩ | ⟨-, hkept⟩ := paragraphWidth_cases h
  · have hunit : ("\\linewidth".toList.all fun c => !isBlank c) = true := by decide
    simp only [List.all_eq_true, Bool.not_eq_true'] at hunit
    apply String.toList_injective
    rw [toList_trim, hshare, String.toList_append]
    apply trimmed_of_no_blank
    intro c hc
    exact (List.mem_append.mp hc).elim (not_isBlank_of_number hnumber c) (hunit c)
  · rw [hkept, trim_trim]

theorem ofWidth?_paragraphWidth (h : (ofWidth? w).isSome = true) :
    ofWidth? (paragraphWidth (trim w)) = some .dimension := by
  rw [ofWidth?_eq_dimension_iff, trim_paragraphWidth h]
  obtain ⟨hnumber, hshare⟩ | ⟨hdimension, hkept⟩ := paragraphWidth_cases h
  · rw [hshare, String.toList_append]
    exact dimension_share hnumber
  · rwa [hkept]

theorem notMem_paragraphWidth (h : (ofWidth? w).isSome = true) :
    ∀ mark ∈ marks, mark ∉ (paragraphWidth (trim w)).toList := by
  have hread : (ofWidth? (paragraphWidth (trim w))).isSome = true := by
    rw [ofWidth?_paragraphWidth h]
    rfl
  rw [← trim_paragraphWidth h]
  exact notMem_of_class (fun c => isWidthChar_of_mem hread) (by decide)

end ColumnSpec

namespace ColumnSpecs
open WidthKind ColumnSpec

variable {specs : ColumnSpecs} {col : Nat}

/-- The registry after a call that sets a width, whether it succeeds or not. -/
def afterWidth (specs : ColumnSpecs) (col : Nat) (width : Option String) : ColumnSpecs :=
  (specs.setWidthInPlace col width).2

/-- The width that a call stores: trimmed, and none when nothing is left. -/
def storedWidth (width : Option String) : Option String := (width.map trim).filter (· ≠ "")

/-- What setting a width does to a column of the registry. -/
structure SetsWidth (specs : ColumnSpecs) (col : Nat) (width : Option String) : Prop where
  succeeds_iff : (∃ specs', specs.setWidth col width = .ok specs') ↔
    ∀ w ∈ width, trim w = "" ∨ (ofWidth? w).isSome = true
  column : ∀ specs', specs.setWidth col width = .ok specs' →
    specs'[col]? = specs[col]?.map fun s => { s with width := storedWidth width }
  others : ∀ specs', specs.setWidth col width = .ok specs' →
    specs'.length = specs.length ∧ ∀ i, i ≠ col → specs'[i]? = specs[i]?
  again : ∀ specs', specs.setWidth col width = .ok specs' →
    specs'.setWidth col (storedWidth width) = .ok specs'
  refused : ∀ err, specs.setWidth col width = .error err →
    specs.afterWidth col width = specs ∧ ∃ w ∈ width, err = .invalidDimension (trim w)

theorem storedWidth_eq (width : Option String) : storedWidth width = width.bind nonBlank? := by
  cases width with
  | none => rfl
  | some w => by_cases hw : trim w = "" <;> simp [storedWidth, nonBlank?, hw, Option.filter]

theorem nonBlank?_storedWidth (width : Option String) :
    (storedWidth width).bind nonBlank? = storedWidth width := by
  rw [storedWidth_eq]
  cases width with
  | none => rfl
  | some w =>
    rw [Option.bind_some]
    cases hw : nonBlank? w with
    | none => rfl
    | some v =>
      obtain ⟨rfl, hne⟩ := nonBlank?_eq_some.mp hw
      rw [Option.bind_some, nonBlank?_eq_some]
      exact ⟨trim_trim, hne⟩

/-- What a call has stored, it would accept. -/
theorem storedWidth_accepted {width : Option String}
    (h : ∀ w ∈ width, trim w = "" ∨ (ofWidth? w).isSome = true) :
    ∀ v ∈ storedWidth width, trim v = "" ∨ (ofWidth? v).isSome = true := by
  intro v hv
  rw [storedWidth_eq] at hv
  obtain ⟨w, hw, hvw⟩ := Option.bind_eq_some_iff.mp hv
  obtain ⟨rfl, hne⟩ := nonBlank?_eq_some.mp hvw
  rw [ofWidth?_trim]
  exact .inr ((h w hw).resolve_left hne)

theorem setsWidth (hcol : col < specs.length) (width : Option String) :
    SetsWidth specs col width where
  succeeds_iff := by
    constructor
    · rintro ⟨specs', h⟩
      exact (setWidth_eq_ok_iff.mp h).2.1
    · exact fun h => ⟨_, setWidth_eq_ok_iff.mpr ⟨hcol, h, rfl⟩⟩
  column := by
    intro specs' h
    obtain ⟨-, -, rfl⟩ := setWidth_eq_ok_iff.mp h
    simp [storedWidth_eq]
  others := by
    intro specs' h
    obtain ⟨-, -, rfl⟩ := setWidth_eq_ok_iff.mp h
    exact ⟨List.length_modify .., fun i hi => by simp [hi.symm]⟩
  again := by
    intro specs' h
    obtain ⟨-, hwidth, rfl⟩ := setWidth_eq_ok_iff.mp h
    refine setWidth_eq_ok_iff.mpr ⟨by simpa using hcol, storedWidth_accepted hwidth, ?_⟩
    rw [nonBlank?_storedWidth, List.modify_modify_eq, storedWidth_eq]
    rfl
  refused := by
    intro err h
    refine ⟨setWidth_atomic width err (InPlace.changed_eq_error_iff.mp h), ?_⟩
    obtain ⟨hout, -⟩ | ⟨-, w, rfl, -, -, rfl⟩ := setWidth_eq_error_iff.mp h
    · omega
    · exact ⟨w, rfl, rfl⟩

/-- A width is accepted when it belongs to the grammar, stored as it was read, and written into a
paragraph column as a dimension that holds no mark of the column specification. -/
theorem widths_in_grammar (w : String) (hcol : col < specs.length) (width : Option String) :
    ReadByGrammar w ∧ SetsWidth specs col width ∧
      ((ofWidth? w).isSome = true → ofWidth? (paragraphWidth (trim w)) = some .dimension ∧
        ∀ mark ∈ marks, mark ∉ (paragraphWidth (trim w)).toList) :=
  ⟨readByGrammar w, setsWidth hcol width,
    fun h => ⟨ofWidth?_paragraphWidth h, notMem_paragraphWidth h⟩⟩

theorem widths_in_grammar_share :
    let specs : ColumnSpecs := [{}, { kind := .paragraph, width := some "wide" }]
    let w := "\u00a0.\u0665 "
    1 < specs.length ∧ (ofWidth? w).isSome = true ∧ ReadByGrammar w ∧
      SetsWidth specs 1 (some w) ∧ ofWidth? (paragraphWidth (trim w)) = some .dimension ∧
        ∀ mark ∈ marks, mark ∉ (paragraphWidth (trim w)).toList := by
  intro specs w
  have hcol : 1 < specs.length := by decide
  have hw : (ofWidth? w).isSome = true := by decide
  obtain ⟨hread, hset, hparagraph⟩ := widths_in_grammar w hcol (some w)
  exact ⟨hcol, hw, hread, hset, hparagraph hw⟩

end ColumnSpecs
end LatexTable
