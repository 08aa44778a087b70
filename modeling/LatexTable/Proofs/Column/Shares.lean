import LatexTable.Document.Basic
import LatexTable.Proofs.Column.Fitted
import LatexTable.Proofs.Column.Weight
/-!
Shares of the line. A flexible column whose width is a number without a unit takes its part of the
sum of such widths. The sum counts every width that reads as a number, so it is that sum unless a
width that is none is read all the same.
-/
namespace LatexTable
open Decimal Text

namespace ColumnSpec

variable {s : ColumnSpec} {w : String} {v total total' : Binary64}

/-- The number of a flexible column whose width is a ratio, its part among such columns. -/
def share? (s : ColumnSpec) : Option Binary64 :=
  if s.kind = .flexibleRatio then
    s.effectiveWidth?.bind fun w =>
      if WidthKind.ofWidth? w = some .ratio then Binary64.read? w else none
  else none

/-- The column as wide as its part of the line. -/
def shareToken (v total : Binary64) : String :=
  paragraphToken ((v.div total).shareText ++ "\\linewidth")

/-- A flexible column whose width is no width and reads as a number. -/
def Stray (s : ColumnSpec) : Prop :=
  s.kind = .flexibleRatio ∧ ∃ w, s.effectiveWidth? = some w ∧ WidthKind.ofWidth? w = none ∧
    (Binary64.read? w).isSome = true

theorem weight?_eq_some : s.weight? = some v ↔
    s.kind = .flexibleRatio ∧ ∃ w, s.effectiveWidth? = some w ∧ Binary64.read? w = some v := by
  simp [weight?, Option.bind_eq_some_iff]

theorem share?_eq_some : s.share? = some v ↔
    s.kind = .flexibleRatio ∧ ∃ w, s.effectiveWidth? = some w ∧
      WidthKind.ofWidth? w = some .ratio ∧ Binary64.read? w = some v := by
  simp [share?, Option.bind_eq_some_iff]

theorem weight?_of_share? (h : s.share? = some v) : s.weight? = some v := by
  obtain ⟨hkind, w, hw, -, hread⟩ := share?_eq_some.mp h
  exact weight?_eq_some.mpr ⟨hkind, w, hw, hread⟩

/-- What is counted without a share is neither a ratio nor a dimension. -/
theorem weight?_eq_share?_iff : s.weight? = s.share? ↔ ¬s.Stray := by
  constructor
  · rintro heq ⟨hkind, w, hw, hnone, hread⟩
    obtain ⟨v, hread⟩ := Option.isSome_iff_exists.mp hread
    have hshare := heq ▸ weight?_eq_some.mpr ⟨hkind, w, hw, hread⟩
    obtain ⟨-, w', hw', hratio, -⟩ := share?_eq_some.mp hshare
    obtain rfl : w = w' := Option.some.inj (hw.symm.trans hw')
    exact absurd (hnone.symm.trans hratio) (by simp)
  · intro hstray
    cases hweight : s.weight? with
    | none =>
      rw [eq_comm, Option.eq_none_iff_forall_ne_some]
      intro v hshare
      exact absurd (hweight.symm.trans (weight?_of_share? hshare)) (by simp)
    | some v =>
      obtain ⟨hkind, w, hw, hread⟩ := weight?_eq_some.mp hweight
      have hratio : WidthKind.ofWidth? w = some .ratio := by
        cases hwidth : WidthKind.ofWidth? w with
        | none => exact absurd ⟨hkind, w, hw, hwidth, by simp [hread]⟩ hstray
        | some kind =>
          cases kind with
          | ratio => rfl
          | dimension =>
            rw [WidthKind.read?_of_dimension hwidth (trim_effectiveWidth hw)] at hread
            cases hread
      exact (share?_eq_some.mpr ⟨hkind, w, hw, hratio, hread⟩).symm

/-- An accepted width is a ratio or a dimension. -/
theorem Admitted.not_stray (h : s.Admitted) : ¬s.Stray := by
  rintro ⟨-, w, hw, hnone, -⟩
  have hkind := (h.effectiveWidth hw).2
  rw [hnone] at hkind
  cases hkind

theorem paragraphToken_injective : Function.Injective paragraphToken := by
  intro w w' h
  have hchars := congrArg String.toList h
  simpa [paragraphToken, String.toList_inj] using hchars

/-- A column with a share is as wide as its part of a positive total. -/
theorem token_of_share? (h : s.share? = some v) (htotal : total.isPositive = true) :
    (s.mapTabular total).token = shareToken v total := by
  obtain ⟨hkind, w, hw, hratio, hread⟩ := share?_eq_some.mp h
  rw [mapTabular_flexible hkind hw]
  simp [shareWidth, hratio, hread, htotal, shareToken, MappedColumn.fallback]

/-- No other column depends on the total. -/
theorem mapTabular_of_share?_eq_none (h : s.share? = none) (total total' : Binary64) :
    s.mapTabular total = s.mapTabular total' := by
  rcases s.mapTabular_cases with hsame | ⟨hkind, w, hw⟩
  · exact hsame total total'
  · have hread : WidthKind.ofWidth? w = some .ratio → Binary64.read? w = none := by
      simpa [share?, hkind, hw] using h
    rw [mapTabular_flexible hkind hw, mapTabular_flexible hkind hw,
      shareWidth_eq_paragraphWidth hread, shareWidth_eq_paragraphWidth hread]

/-- A width that is counted without being a ratio is written as it is. -/
theorem token_eq_shareToken_iff (hweight : s.weight? = some v) (htotal : total.isPositive = true) :
    (s.mapTabular total).token = shareToken v total ↔ s.share? = some v := by
  refine ⟨fun htoken => ?_, fun hshare => token_of_share? hshare htotal⟩
  obtain ⟨hkind, w, hw, hread⟩ := weight?_eq_some.mp hweight
  by_contra hshare
  have hratio : WidthKind.ofWidth? w ≠ some .ratio := fun hratio =>
    hshare (share?_eq_some.mpr ⟨hkind, w, hw, hratio, hread⟩)
  have hplain : shareWidth w total = w := by
    rw [shareWidth_eq_paragraphWidth fun h => absurd h hratio, paragraphWidth, if_neg hratio]
  have hsame : w = (v.div total).shareText ++ "\\linewidth" := by
    rw [mapTabular_flexible hkind hw, hplain] at htoken
    exact paragraphToken_injective htoken
  -- a share holds a command, what is read as a number has no backslash
  have hbackslash : '\\' ∉ w.toList := Binary64.notMem_of_read? hread (by decide) (by decide)
  rw [hsame] at hbackslash
  simp at hbackslash

end ColumnSpec

namespace ColumnSpecs

variable {specs : ColumnSpecs} {dialect : Dialect} {s s' : ColumnSpec} {i : Nat}

/-- How a tabular dialect shares the line among the columns of a registry. -/
structure LineShares (dialect : Dialect) (specs : ColumnSpecs) : Prop where
  /-- What is counted in a positive total gets its part of it exactly if it is a share. -/
  parts : specs.ratioTotal.isPositive = true → ∀ (i : Nat) (s : ColumnSpec) (v : Binary64),
    specs[i]? = some s → s.weight? = some v →
      ((specs.mapFor dialect)[i]?.map MappedColumn.token =
        some (ColumnSpec.shareToken v specs.ratioTotal) ↔ s.share? = some v)
  /-- A column without a share is written as if it stood alone. -/
  others : ∀ (i : Nat) (s : ColumnSpec), specs[i]? = some s → s.share? = none →
    (specs.mapFor dialect)[i]? = (mapFor dialect [s])[0]?
  /-- A column that is not counted may change in any way that keeps it so: no other changes. -/
  frame : ∀ (i : Nat) (s s' : ColumnSpec), specs[i]? = some s → s.weight? = none →
    s'.weight? = none → ∀ j ≠ i, (mapFor dialect (specs.set i s'))[j]? = (specs.mapFor dialect)[j]?

theorem mapFor_tabular (hd : dialect ≠ .modern) (specs : ColumnSpecs) :
    specs.mapFor dialect = specs.map (ColumnSpec.mapTabular specs.ratioTotal) := by
  cases dialect with
  | modern => exact absurd rfl hd
  | plain | rules => rfl

theorem weights_set (hi : specs[i]? = some s) (hs : s.weight? = none) (hs' : s'.weight? = none) :
    (specs.set i s').filterMap ColumnSpec.weight? = specs.filterMap ColumnSpec.weight? := by
  induction specs generalizing i with
  | nil => rfl
  | cons d specs ih =>
    cases i with
    | zero =>
      obtain rfl : d = s := by simpa using hi
      simp [hs, hs']
    | succ i =>
      have hrest := ih (i := i) (by simpa using hi)
      simp only [List.set_cons_succ, List.filterMap_cons, hrest]

/-- A column without a weight adds nothing to the total. -/
theorem ratioTotal_set (hi : specs[i]? = some s) (hs : s.weight? = none)
    (hs' : s'.weight? = none) : ratioTotal (specs.set i s') = specs.ratioTotal :=
  congrArg Binary64.sum (weights_set hi hs hs')

theorem lineShares (hd : dialect ≠ .modern) (specs : ColumnSpecs) : LineShares dialect specs where
  parts := by
    intro htotal i s v hi hweight
    rw [mapFor_tabular hd, List.getElem?_map, hi, Option.map_some, Option.map_some,
      Option.some.injEq]
    exact ColumnSpec.token_eq_shareToken_iff hweight htotal
  others := by
    intro i s hi hshare
    rw [mapFor_tabular hd, mapFor_tabular hd, List.getElem?_map, hi]
    exact congrArg some (ColumnSpec.mapTabular_of_share?_eq_none hshare _ _)
  frame := by
    intro i s s' hi hs hs' j hj
    rw [mapFor_tabular hd, mapFor_tabular hd, ratioTotal_set hi hs hs', List.getElem?_map,
      List.getElem?_map, List.getElem?_set_ne hj.symm]

/-- The total is the sum of the shares, and the columns counted in it are those that get their part
of it, unless a width that the registry would not accept reads as a number. Other columns neither
depend on the total nor count in it. -/
theorem ratioTotal_counts_shares (specs : ColumnSpecs) :
    ((∀ s ∈ specs, s.weight? = s.share?) ↔ ∀ s ∈ specs, ¬s.Stray) ∧
      ((∀ s ∈ specs, ¬s.Stray) →
        specs.ratioTotal = Binary64.sum (specs.filterMap ColumnSpec.share?)) ∧
      ((∀ s ∈ specs, s.Admitted) → ∀ s ∈ specs, ¬s.Stray) ∧
      LineShares .plain specs ∧ LineShares .rules specs := by
  have hcounted : (∀ s ∈ specs, s.weight? = s.share?) ↔ ∀ s ∈ specs, ¬s.Stray :=
    forall₂_congr fun s _ => ColumnSpec.weight?_eq_share?_iff
  refine ⟨hcounted, fun hstray => ?_, fun h s hs => (h s hs).not_stray,
    lineShares (by decide) specs, lineShares (by decide) specs⟩
  exact congrArg Binary64.sum (List.filterMap_congr (hcounted.mpr hstray))

/-- A ratio takes its part of the ratios, whatever dimension stands beside it. -/
theorem ratioTotal_counts_shares_mixed :
    let specs : ColumnSpecs :=
      [⟨.flexibleRatio, some "1"⟩, ⟨.flexibleRatio, some "3"⟩, ⟨.flexibleRatio, some "2cm"⟩]
    (specs.mapFor .plain)[0]?.map (·.token) = some "p\x7b0.25\\linewidth\x7d" ∧
      specs.ratioTotal = Binary64.sum (specs.filterMap ColumnSpec.share?) := by
  intro specs
  obtain ⟨-, htotal, hadmitted, hplain, -⟩ := ratioTotal_counts_shares specs
  refine ⟨?_, htotal (hadmitted (by decide))⟩
  have hpart := hplain.parts (by decide +kernel) 0 ⟨.flexibleRatio, some "1"⟩
    (.finite Binary64.one) rfl (by decide +kernel)
  rw [hpart.mpr (by decide +kernel)]
  decide +kernel

/-- A document may hold a width in scientific notation. It halves the share of the other column and
takes none itself. -/
theorem stray_width_counted :
    let specs : ColumnSpecs := [⟨.flexibleRatio, some "1"⟩, ⟨.flexibleRatio, some "1e0"⟩]
    let d : TableDocument := { dialect := .plain, rows := [["a", "b"]], columns := specs }
    (∃ s, d.toSession = .ok s ∧ s.columns = specs ∧ s.dialect = .plain) ∧
      specs.filterMap ColumnSpec.weight? ≠ specs.filterMap ColumnSpec.share? ∧
      (specs.mapFor .plain).map (·.token) = ["p\x7b0.5\\linewidth\x7d", "p\x7b1e0\x7d"] ∧
      (mapFor .plain [⟨.flexibleRatio, some "1"⟩, ⟨.flexibleRatio, none⟩]).map (·.token) =
        ["p\x7b1\\linewidth\x7d", "c"] := by
  intro specs d
  have hsession : d.toSession.map (fun s => (s.columns, s.dialect)) = .ok (specs, .plain) := by
    decide +kernel
  refine ⟨?_, by decide +kernel, by decide +kernel, by decide +kernel⟩
  cases h : d.toSession with
  | error e =>
    rw [h] at hsession
    cases hsession
  | ok s =>
    rw [h] at hsession
    obtain ⟨hcolumns, hdialect⟩ := Prod.mk.inj (Except.ok.inj hsession)
    exact ⟨s, rfl, hcolumns, hdialect⟩

end ColumnSpecs
end LatexTable
