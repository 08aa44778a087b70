import LatexTable.Proofs.Column.Fitted
import LatexTable.Proofs.Grid.Reachable
import LatexTable.Proofs.Latex.Injective
/-!
A table with a registry that does not have its width. Missing columns are centred as if the registry
had them. Columns in excess are not written, but outside the modern dialect they have taken their
shares of the line before.
-/
namespace LatexTable
open Decimal Text

variable {g : Grid} {dialect : Dialect} {specs specs' : ColumnSpecs} {o : TableOptions} {n : Nat}

namespace Latex

variable {total total' : Binary64} {ss : List ColumnSpec} {tail : List MappedColumn}
  {r r' : List Char} {body body' : List String}

theorem spec_shares (verticalRules : Bool)
    (h : (TabularColumns.spec ⟨ss.map (ColumnSpec.mapTabular total) ++ tail,
        verticalRules⟩).toList ++ r =
      (TabularColumns.spec ⟨ss.map (ColumnSpec.mapTabular total') ++ tail,
        verticalRules⟩).toList ++ r') :
    ∀ s ∈ ss, s.mapTabular total = s.mapTabular total' := by
  cases verticalRules with
  | true =>
    apply ColumnSpecs.shares_inj ['|']
    · simpa [TabularColumns.spec, String.toList_join, List.flatMap_map] using h
  | false =>
    apply ColumnSpecs.shares_inj []
    · simpa [TabularColumns.spec, String.toList_join, List.flatMap_map] using h

/-- Equal tables give the same shares, whatever their bodies are. -/
theorem shares_of_tabular {verticalRules : Bool}
    (h : tabular o ⟨ss.map (ColumnSpec.mapTabular total) ++ tail, verticalRules⟩ body =
      tabular o ⟨ss.map (ColumnSpec.mapTabular total') ++ tail, verticalRules⟩ body') :
    ∀ s ∈ ss, s.mapTabular total = s.mapTabular total' := by
  have hchars := congrArg String.toList h
  rw [toList_tabular, toList_tabular] at hchars
  exact spec_shares verticalRules (List.append_cancel_left (List.append_cancel_left hchars))

end Latex

namespace Grid

theorem latex_congr (h : specs.resolve dialect g.cols = specs'.resolve dialect g.cols) :
    g.latex dialect specs o = g.latex dialect specs' o := by
  cases dialect <;>
    simp only [latex, Latex.tblrTable, Latex.tblrHeader, Latex.tblrColspec, Latex.plainTable,
      Latex.rulesTable, h]

theorem keepsShares_of_latex
    (h : g.latex dialect (specs.fitted g.cols) o = g.latex dialect specs o) :
    specs.KeepsShares dialect g.cols := by
  cases dialect with
  | modern => exact fun _ _ => rfl
  | plain =>
    simp only [latex, Latex.plainTable] at h
    rw [ColumnSpecs.resolve_fitted, ColumnSpecs.resolve_eq] at h
    exact Latex.shares_of_tabular h
  | rules =>
    simp only [latex, Latex.rulesTable] at h
    rw [ColumnSpecs.resolve_fitted, ColumnSpecs.resolve_eq] at h
    exact Latex.shares_of_tabular h

/-- A registry may be cut or filled up first exactly where the columns in excess take no part of the
shares. A missing column takes none, nor does one without a weight. -/
theorem latex_fitted (g : Grid) (dialect : Dialect) (specs : ColumnSpecs) (o : TableOptions) :
    (g.latex dialect (specs.fitted g.cols) o = g.latex dialect specs o ↔
      specs.KeepsShares dialect g.cols) ∧
    (dialect = .modern ∨ (∀ s ∈ specs.drop g.cols, s.weight? = none) →
      g.latex dialect (specs.fitted g.cols) o = g.latex dialect specs o) := by
  have hiff : g.latex dialect (specs.fitted g.cols) o = g.latex dialect specs o ↔
      specs.KeepsShares dialect g.cols :=
    ⟨keepsShares_of_latex, fun h => latex_congr (ColumnSpecs.resolve_fitted_eq_iff.mpr h)⟩
  refine ⟨hiff, fun h => hiff.mpr fun s _ => ?_⟩
  rcases h with rfl | hweightless
  · rfl
  · rw [ColumnSpecs.ratioTotal_fitted hweightless]

theorem latex_fitted_padded :
    let specs : ColumnSpecs := [⟨.flexibleRatio, some "2"⟩]
    (Grid.blank 1 3).latex .plain (specs.fitted 3) {} = (Grid.blank 1 3).latex .plain specs {} :=
  (latex_fitted (Grid.blank 1 3) .plain _ _).2 (.inr (by decide))

/-- A column that the table has no room for takes half of the line. -/
theorem latex_unfitted_excess :
    let specs : ColumnSpecs := [⟨.flexibleRatio, some "1"⟩, ⟨.flexibleRatio, some "1"⟩]
    (Grid.blank 1 1).Reachable ∧
      (Grid.blank 1 1).latex .plain (specs.fitted 1) {} ≠ (Grid.blank 1 1).latex .plain specs {} :=
  ⟨.blank 1 1 (by decide), by decide +kernel⟩

end Grid
end LatexTable
