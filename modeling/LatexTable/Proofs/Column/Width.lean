import LatexTable.Column.Mapping
import LatexTable.Proofs.Text.Blank
import LatexTable.Proofs.Text.Pieces
/-!
What widths are made of. A width is a number, or a number, white space and a unit, one after the
other; a share of the line is a decimal number. So neither holds a character of the grammar around
them.
-/
namespace LatexTable
open Decimal Text

namespace WidthKind

variable {cs : List Char} {c : Char} {w : String}

theorem isDimension_of_dimension (h : ofWidth? w = some .dimension) :
    isDimension (trim w).toList = true := by
  unfold ofWidth? at h
  dsimp only at h
  split at h
  next hdimension => exact hdimension
  next => split at h <;> cases h

theorem isNumber_of_ratio (h : ofWidth? w = some .ratio) : isNumber (trim w).toList = true := by
  unfold ofWidth? at h
  dsimp only at h
  split at h
  next => cases h
  next =>
    split at h
    next hnumber => exact hnumber
    next => cases h

theorem mem_of_isNumber (h : isNumber cs = true) (hc : c ∈ cs) :
    isDecimalDigit c = true ∨ c = '.' := by
  unfold isNumber at h
  dsimp only at h
  rw [← List.takeWhile_append_dropWhile (p := isDecimalDigit) (l := cs), List.mem_append] at hc
  rcases hc with hc | hc
  · exact .inl (List.mem_takeWhile_imp hc)
  · split at h
    next hnil =>
      rw [hnil] at hc
      cases hc
    next d fraction hrest =>
      simp only [Bool.and_eq_true, decide_eq_true_eq, List.all_eq_true] at h
      obtain ⟨⟨rfl, -⟩, hall⟩ := h
      rw [hrest, List.mem_cons] at hc
      exact hc.elim .inr fun hc => .inl (hall c hc)

theorem ne_nil_of_isNumber (h : isNumber cs = true) : cs ≠ [] := by
  rintro rfl
  exact absurd h (by decide)

/-- Number, white space and unit are cut one after the other. -/
theorem exists_parts (h : isDimension cs = true) :
    ∃ number blanks, ∃ unit ∈ units, cs = number ++ (blanks ++ unit.toList) ∧
      isNumber number = true ∧ ∀ c ∈ blanks, isBlank c = true := by
  simp only [isDimension, Bool.and_eq_true, List.contains_iff_mem] at h
  obtain ⟨hnumber, hunit⟩ := h
  generalize hrest : cs.dropWhile (fun c => isDecimalDigit c || c = '.') = rest at hunit
  refine ⟨numberPart cs, rest.takeWhile isBlank, _, hunit, ?_, hnumber,
    fun c => List.mem_takeWhile_imp⟩
  rw [String.toList_ofList, dropBlanks, List.takeWhile_append_dropWhile, ← hrest, numberPart,
    List.takeWhile_append_dropWhile]

/-- The characters of widths. -/
def isWidthChar (c : Char) : Bool :=
  isDecimalDigit c || c = '.' || isBlank c || units.any fun unit => unit.toList.contains c

theorem isWidthChar_of_mem_unit {unit : String} (hunit : unit ∈ units) (hc : c ∈ unit.toList) :
    isWidthChar c = true := by
  have hany : (units.any fun unit => unit.toList.contains c) = true :=
    List.any_eq_true.mpr ⟨unit, hunit, by simpa using hc⟩
  rw [isWidthChar, hany, Bool.or_true]

theorem isWidthChar_of_mem (h : (ofWidth? w).isSome = true) (hc : c ∈ (trim w).toList) :
    isWidthChar c = true := by
  have hnumber {cs : List Char} (hn : isNumber cs = true) (hc : c ∈ cs) : isWidthChar c = true := by
    rcases mem_of_isNumber hn hc with hd | rfl
    · simp [isWidthChar, hd]
    · decide
  obtain ⟨kind, hkind⟩ := Option.isSome_iff_exists.mp h
  cases kind with
  | ratio => exact hnumber (isNumber_of_ratio hkind) hc
  | dimension =>
    obtain ⟨number, blanks, unit, hunit, hparts, hn, hblanks⟩ :=
      exists_parts (isDimension_of_dimension hkind)
    rw [hparts, List.mem_append, List.mem_append] at hc
    rcases hc with hc | hc | hc
    · exact hnumber hn hc
    · simp [isWidthChar, hblanks c hc]
    · exact isWidthChar_of_mem_unit hunit hc

end WidthKind

namespace Decimal.Binary64

variable {v : Binary64} {c : Char}

/-- The characters of shares: digits, what stands around them, and the letters of values that are
no numbers. -/
def isShareChar (c : Char) : Bool := c.isDigit || "-.NaNinf".toList.contains c

theorem isShareChar_of_mem_threePlaces (h : c ∈ v.threePlaces.toList) : isShareChar c = true := by
  have hdigits {n : Nat} (hc : c ∈ (toString n).toList) : isShareChar c = true := by
    rw [isShareChar, isDigit_of_mem_digits hc, Bool.true_or]
  cases v with
  | nan => exact List.all_eq_true.mp (by decide) c h
  | infinity negative => cases negative <;> exact List.all_eq_true.mp (by decide) c h
  | finite units =>
    unfold threePlaces at h
    dsimp only at h
    simp only [String.toList_append, String.toList_ofList, List.mem_append] at h
    rcases h with (((h | h) | h) | h) | h
    · split at h
      · exact List.all_eq_true.mp (by decide) c h
      · exact absurd h (by simp)
    · exact hdigits h
    · exact List.all_eq_true.mp (by decide) c h
    · rw [List.eq_of_mem_replicate h]
      decide
    · exact hdigits h

theorem isShareChar_of_mem_shareText (h : c ∈ v.shareText.toList) : isShareChar c = true := by
  have hsuffix (p : Char → Bool) {cs : List Char} (hc : c ∈ dropEndWhile p cs) : c ∈ cs :=
    (List.rdropWhile_prefix p cs).subset hc
  unfold shareText at h
  dsimp only at h
  split at h
  · exact List.all_eq_true.mp (by decide) c h
  · rw [String.toList_ofList] at h
    exact isShareChar_of_mem_threePlaces (hsuffix _ (hsuffix _ h))

end Decimal.Binary64
end LatexTable
