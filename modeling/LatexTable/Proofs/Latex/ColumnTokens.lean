import LatexTable.Proofs.Column.Fitted
import LatexTable.Proofs.Column.Registry
import LatexTable.Proofs.Latex.Commands
/-!
Column tokens with accepted widths. Such a width is a number, or a number and one of a few units, so
a token holds no command that a package brings along.
-/
namespace LatexTable
open Latex Result Text

variable {s : ColumnSpec} {w : String} {specs : ColumnSpecs} {dialect : Dialect} {n : Nat}

namespace Latex

theorem silent_unit : ∀ unit ∈ WidthKind.units, Silent unit := by
  have hcommand : ∀ unit ∈ WidthKind.units, '\\' ∈ unit.toList → unit ∈ plainCommands := by decide
  intro unit hunit
  by_cases hplain : '\\' ∈ unit.toList
  · exact silent_plainCommand (hcommand unit hunit hplain)
  · exact Silent.of_notMem hplain

/-- A width is a number and perhaps a unit. -/
theorem silent_width (htrim : trim w = w) (h : (WidthKind.ofWidth? w).isSome = true) :
    Silent w := by
  obtain ⟨kind, hkind⟩ := Option.isSome_iff_exists.mp h
  cases kind with
  | ratio => exact Silent.of_notMem (htrim ▸ notMem_of_ratio hkind)
  | dimension =>
    obtain ⟨number, blanks, unit, hunit, hparts, hnumber, hblanks⟩ :=
      WidthKind.exists_parts (htrim ▸ WidthKind.isDimension_of_dimension hkind)
    have hw : w = String.ofList number ++ (String.ofList blanks ++ unit) := by
      apply String.toList_injective
      simpa using hparts
    have hnumber : '\\' ∉ number := fun hmem =>
      (WidthKind.mem_of_isNumber hnumber hmem).elim (absurd · (by decide)) (absurd · (by decide))
    have hblanks : '\\' ∉ blanks := fun hmem => absurd (hblanks _ hmem) (by decide)
    rw [hw]
    exact (Silent.of_notMem (by rwa [String.toList_ofList])).append
      ((Silent.of_notMem (by rwa [String.toList_ofList])).append (silent_unit unit hunit))

theorem silent_linewidth : Silent "\\linewidth" := silent_plainCommand (by decide)

theorem silent_paragraphWidth (h : Silent w) : Silent (ColumnSpec.paragraphWidth w) := by
  unfold ColumnSpec.paragraphWidth
  split
  · exact h.append silent_linewidth
  · exact h

theorem silent_shareWidth (h : Silent w) (total : Decimal.Binary64) :
    Silent (ColumnSpec.shareWidth w total) := by
  unfold ColumnSpec.shareWidth
  split
  · split
    · exact (Silent.of_notMem (notMem_shareText _)).append silent_linewidth
    · exact silent_paragraphWidth h
  · exact silent_paragraphWidth h

theorem silent_paragraphToken (h : Silent w) : Silent (ColumnSpec.paragraphToken w) :=
  ((Silent.of_notMem (by decide)).append h).append (Silent.of_notMem (by decide))

/-- The token of a column in any dialect. -/
theorem silent_mapWith (h : s.Admitted) (total : Decimal.Binary64) :
    Silent (s.mapWith dialect total).token := by
  have hbetween {opening w closing : String} (hopening : '\\' ∉ opening.toList) (hw : Silent w)
      (hclosing : '\\' ∉ closing.toList) : Silent (opening ++ w ++ closing) :=
    ((Silent.of_notMem hopening).append hw).append (Silent.of_notMem hclosing)
  rcases s.mapWith_token_cases dialect total with hletter | ⟨w, hw, htoken⟩
  · have hletters : ∀ t ∈ ["l", "c", "r", "X"], '\\' ∉ t.toList := by decide
    exact Silent.of_notMem (hletters _ hletter)
  · have hwidth : Silent w := silent_width (h.effectiveWidth hw).1 (h.effectiveWidth hw).2
    simp only [ColumnSpec.widthTokens, List.mem_cons, List.not_mem_nil, or_false] at htoken
    rcases htoken with htoken | htoken | htoken | htoken <;> rw [htoken]
    · exact hbetween (by decide) hwidth (by decide)
    · exact hbetween (by decide) hwidth (by decide)
    · exact silent_paragraphToken (silent_paragraphWidth hwidth)
    · exact silent_paragraphToken (silent_shareWidth hwidth total)

theorem silent_resolve (h : ∀ s ∈ specs, s.Admitted) :
    ∀ c ∈ specs.resolve dialect n, Silent c.token := by
  intro c hc
  rw [ColumnSpecs.resolve_eq, List.mem_append, List.mem_map] at hc
  rcases hc with ⟨s, hs, rfl⟩ | hc
  · exact silent_mapWith (h s (List.mem_of_mem_take hs)) _
  · rw [List.eq_of_mem_replicate hc]
    exact Silent.of_notMem (by decide)

end Latex
end LatexTable
