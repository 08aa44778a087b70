import LatexTable.Proofs.Column.Width
/-!
Widths that are read as numbers. A number is read from digits, a point, signs and an exponent, and
from the words for infinities and no number. No width with a unit is read.
-/
namespace LatexTable
open Decimal Text

namespace Decimal.Binary64

variable {cs : List Char} {c : Char} {w : String} {v : Binary64} {e : Int} {negative : Bool}

/-- The characters of numbers that are written with digits. -/
def isNumeralChar (c : Char) : Bool := isAsciiDigit c || ".eE+-".toList.contains c

theorem isNumeralChar_of_digit (h : isAsciiDigit c = true) : isNumeralChar c = true := by
  rw [isNumeralChar, h, Bool.true_or]

theorem mem_readSign (h : c ∈ cs) : c = '+' ∨ c = '-' ∨ c ∈ (readSign cs).2 := by
  unfold readSign
  split
  next => exact (List.mem_cons.mp h).imp_right .inr
  next => exact .inr (List.mem_cons.mp h)
  next => exact .inr (.inr h)

theorem isNumeralChar_or_mem_readSign (h : c ∈ cs) :
    isNumeralChar c = true ∨ c ∈ (readSign cs).2 := by
  rcases mem_readSign h with rfl | rfl | h
  · exact .inl (by decide)
  · exact .inl (by decide)
  · exact .inr h

theorem isNumeralChar_of_readExponent? (h : readExponent? cs = some e) (hc : c ∈ cs) :
    isNumeralChar c = true := by
  cases cs with
  | nil => cases hc
  | cons d ds =>
    simp only [readExponent?, Bool.or_eq_true, decide_eq_true_eq, Option.ite_none_right_eq_some,
      Option.ite_none_left_eq_some, Bool.not_eq_true', not_or, Bool.not_eq_false,
      List.all_eq_true] at h
    obtain ⟨hmark, ⟨-, hdigits⟩, -⟩ := h
    rcases List.mem_cons.mp hc with rfl | hc
    · rcases hmark with rfl | rfl <;> decide
    · rcases isNumeralChar_or_mem_readSign hc with hc | hc
      · exact hc
      · exact isNumeralChar_of_digit (hdigits c hc)

/-- Behind the digits at the beginning stands the rest of the number. -/
theorem isNumeralChar_of_dropWhile
    (h : ∀ c ∈ cs.dropWhile isAsciiDigit, isNumeralChar c = true) :
    ∀ c ∈ cs, isNumeralChar c = true := by
  intro c hc
  rw [← List.takeWhile_append_dropWhile (p := isAsciiDigit) (l := cs), List.mem_append] at hc
  rcases hc with hc | hc
  · exact isNumeralChar_of_digit (List.mem_takeWhile_imp hc)
  · exact h c hc

theorem isNumeralChar_of_readNumber? (h : readNumber? negative cs = some v) :
    ∀ c ∈ cs, isNumeralChar c = true := by
  unfold readNumber? at h
  dsimp only at h
  split at h <;> dsimp only at h <;>
    obtain ⟨e, hexponent, -⟩ := Option.map_eq_some_iff.mp (Option.ite_none_left_eq_some.mp h).2
  next more hpoint =>
    have hmore : ∀ c ∈ more, isNumeralChar c = true :=
      isNumeralChar_of_dropWhile fun c => isNumeralChar_of_readExponent? hexponent
    apply isNumeralChar_of_dropWhile
    rw [hpoint]
    exact List.forall_mem_cons.mpr ⟨by decide, hmore⟩
  next => exact isNumeralChar_of_dropWhile fun c => isNumeralChar_of_readExponent? hexponent

/-- The words that are read besides numerals. -/
def words : List String := ["inf", "infinity", "nan"]

theorem read?_cases (h : read? w = some v) :
    (∃ word ∈ words, (readSign w.toList).2.map Char.toLower = word.toList) ∨
      ∀ c ∈ w.toList, isNumeralChar c = true := by
  have hword {word : String} (hmem : word ∈ words)
      (heq : String.ofList ((readSign w.toList).2.map Char.toLower) = word) :
      ∃ word ∈ words, (readSign w.toList).2.map Char.toLower = word.toList :=
    ⟨word, hmem, by rw [← heq, String.toList_ofList]⟩
  unfold read? at h
  dsimp only at h
  split at h
  next heq => exact .inl (hword (by decide) heq)
  next heq => exact .inl (hword (by decide) heq)
  next heq => exact .inl (hword (by decide) heq)
  next =>
    right
    intro c hc
    rcases isNumeralChar_or_mem_readSign hc with hc | hc
    · exact hc
    · exact isNumeralChar_of_readNumber? h c hc

/-- A character that no numeral and no word holds. -/
theorem notMem_of_read? (h : read? w = some v) (hc : isNumeralChar c = false)
    (hwords : ∀ word ∈ words, c.toLower ∉ word.toList) : c ∉ w.toList := by
  intro hmem
  rcases read?_cases h with ⟨word, hword, hlower⟩ | hnumeral
  · rcases isNumeralChar_or_mem_readSign hmem with hnumeral | hrest
    · rw [hnumeral] at hc
      cases hc
    · exact hwords word hword (hlower ▸ List.mem_map_of_mem hrest)
  · rw [hnumeral c hmem] at hc
    cases hc

end Decimal.Binary64

namespace WidthKind

variable {c : Char} {w word : String}

/-- Decimal digits are ASCII digits or lie behind all ASCII characters. -/
theorem toNat_of_isDecimalDigit (h : isDecimalDigit c = true) :
    c.toNat ≤ 0x39 ∨ 0x80 ≤ c.toNat := by
  have hruns : ∀ run ∈ decimalDigitRuns, run.2 ≤ 0x39 ∨ 0x80 ≤ run.1 := by decide
  simp only [isDecimalDigit, List.any_eq_true, Bool.and_eq_true, decide_eq_true_eq] at h
  obtain ⟨run, hrun, hfirst, hlast⟩ := h
  have := hruns run hrun
  omega

/-- Words begin with a letter, numbers do not. -/
theorem toLower_notMem_word (hc : isDecimalDigit c = true ∨ c = '.')
    (hword : word ∈ Binary64.words) : c.toLower ∉ word.toList := by
  have hletters : ∀ word ∈ Binary64.words,
      word.toList.all (fun d => 0x61 ≤ d.toNat && d.toNat ≤ 0x7A) = true := by decide
  have houtside : c.toNat ≤ 0x39 ∨ 0x80 ≤ c.toNat := by
    rcases hc with hc | rfl
    · exact toNat_of_isDecimalDigit hc
    · decide
  intro hmem
  have hletter := List.all_eq_true.mp (hletters word hword) _ hmem
  simp only [Bool.and_eq_true, decide_eq_true_eq] at hletter
  have hlower : c.toLower = c := by
    unfold Char.toLower
    rw [dif_neg]
    change ¬(65 ≤ c.toNat ∧ c.toNat ≤ 90)
    omega
  rw [hlower] at hletter
  omega

/-- A width with a unit is no number. -/
theorem read?_of_dimension (h : ofWidth? w = some .dimension) (htrim : trim w = w) :
    Binary64.read? w = none := by
  have hunits : ∀ unit ∈ units, unit.toList.any (fun c => !Binary64.isNumeralChar c) = true := by
    decide
  obtain ⟨number, blanks, unit, hunit, hparts, hnumber, -⟩ :=
    exists_parts (htrim ▸ isDimension_of_dimension h)
  rw [Option.eq_none_iff_forall_ne_some]
  intro v hread
  rcases Binary64.read?_cases hread with ⟨word, hword, hlower⟩ | hnumeral
  · obtain ⟨c, hc⟩ := List.exists_mem_of_ne_nil number (ne_nil_of_isNumber hnumber)
    have hdigit := mem_of_isNumber hnumber hc
    have hmem : c ∈ w.toList := by
      rw [hparts]
      exact List.mem_append_left _ hc
    rcases Binary64.mem_readSign hmem with rfl | rfl | hrest
    · exact absurd hdigit (by decide)
    · exact absurd hdigit (by decide)
    · exact toLower_notMem_word hdigit hword (hlower ▸ List.mem_map_of_mem hrest)
  · obtain ⟨c, hc, hother⟩ := List.any_eq_true.mp (hunits unit hunit)
    have hmem : c ∈ w.toList := by
      rw [hparts]
      exact List.mem_append_right _ (List.mem_append_right _ hc)
    rw [hnumeral c hmem] at hother
    cases hother

end WidthKind
end LatexTable
