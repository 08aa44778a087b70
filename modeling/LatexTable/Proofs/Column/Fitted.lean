import LatexTable.Proofs.Column.Registry
import LatexTable.Proofs.Column.Resolve
import LatexTable.Proofs.Column.Width
/-!
A registry brought to the width of the table before its columns are mapped, next to one whose mapped
columns are. The two differ in the shares of flexible columns alone: a column that is cut off after
the mapping has taken its part of the line.
-/
namespace LatexTable
open Decimal Text

/-- The two texts are the same, or the same behind the first backslash of each. -/
def Text.Akin (a a' : List Char) : Prop :=
  a = a' ∨ ∃ w w' rest, '\\' ∉ w ∧ '\\' ∉ w' ∧ a = w ++ '\\' :: rest ∧ a' = w' ++ '\\' :: rest

namespace Text.Akin

variable {a a' r r' : List Char}

/-- Akin texts at the beginning of one text are the same. -/
theorem append_inj (h : Akin a a') (heq : a ++ r = a' ++ r') : a = a' ∧ r = r' := by
  rcases h with rfl | ⟨w, w', rest, hw, hw', rfl, rfl⟩
  · exact ⟨rfl, List.append_cancel_left heq⟩
  · simp only [List.append_assoc, List.cons_append] at heq
    obtain ⟨rfl, hrest⟩ := append_cons_inj hw hw' heq
    exact ⟨rfl, List.append_cancel_left hrest⟩

end Text.Akin

section Numbers

theorem notMem_shareText (v : Binary64) : '\\' ∉ v.shareText.toList := fun hmem =>
  absurd (Binary64.isShareChar_of_mem_shareText hmem) (by decide)

/-- A width without a unit has digits and points only. -/
theorem notMem_of_ratio {w : String} (h : WidthKind.ofWidth? w = some .ratio) :
    '\\' ∉ (trim w).toList := by
  intro hmem
  rcases WidthKind.mem_of_isNumber (WidthKind.isNumber_of_ratio h) hmem with hdigit | hpoint
  · exact absurd hdigit (by decide)
  · exact absurd hpoint (by decide)

end Numbers

namespace ColumnSpec

variable {dialect : Dialect} {total total' : Binary64} {s : ColumnSpec}

/-- The column as it is written next to flexible columns of the given total weight. -/
def mapWith (dialect : Dialect) (total : Binary64) (s : ColumnSpec) : MappedColumn :=
  match dialect with
  | .modern => s.mapModern
  | .plain | .rules => s.mapTabular total

theorem mapWith_default : mapWith dialect total .default = .centered := by
  cases dialect <;> rfl

/-- The tokens that are written around a width. -/
def widthTokens (total : Binary64) (w : String) : List String :=
  ["X[" ++ w ++ "]", "Q[wd=" ++ w ++ "]", paragraphToken (paragraphWidth w),
    paragraphToken (shareWidth w total)]

/-- A column is written as a letter or around its width. -/
theorem mapWith_token_cases (dialect : Dialect) (total : Binary64) (s : ColumnSpec) :
    (s.mapWith dialect total).token ∈ ["l", "c", "r", "X"] ∨
      ∃ w, s.effectiveWidth? = some w ∧ (s.mapWith dialect total).token ∈ widthTokens total w := by
  have hweighted (w : String) : "X[" ++ w ++ "]" ∈ widthTokens total w := by simp [widthTokens]
  have hkeyed (w : String) : "Q[wd=" ++ w ++ "]" ∈ widthTokens total w := by simp [widthTokens]
  have hparagraph (w : String) : paragraphToken (paragraphWidth w) ∈ widthTokens total w := by
    simp [widthTokens]
  have hshare (w : String) : paragraphToken (shareWidth w total) ∈ widthTokens total w := by
    simp [widthTokens]
  cases dialect with
  | modern =>
    change s.mapModern.token ∈ _ ∨ ∃ w, _ ∧ s.mapModern.token ∈ _
    unfold mapModern
    split
    case h_5 w _ hw =>
      split
      · exact .inr ⟨w, hw, hweighted w⟩
      · exact .inr ⟨w, hw, hkeyed w⟩
    case h_7 w _ hw =>
      split
      · exact .inl (by decide)
      · exact .inr ⟨w, hw, hkeyed w⟩
    case h_8 w _ hw => exact .inr ⟨w, hw, hparagraph w⟩
    all_goals exact .inl (by decide)
  | plain | rules =>
    change (s.mapTabular total).token ∈ _ ∨ ∃ w, _ ∧ (s.mapTabular total).token ∈ _
    unfold mapTabular
    split
    case h_4 w _ hw => exact .inr ⟨w, hw, hparagraph w⟩
    case h_6 w _ hw => exact .inr ⟨w, hw, hshare w⟩
    case h_7 w _ hw => exact .inr ⟨w, hw, hparagraph w⟩
    all_goals exact .inl (by decide)

theorem mapTabular_flexible {w : String} (hkind : s.kind = .flexibleRatio)
    (hw : s.effectiveWidth? = some w) (total : Binary64) : s.mapTabular total =
      .fallback .flexibleRatio .paragraph (paragraphToken (shareWidth w total)) := by
  simp [mapTabular, hkind, hw]

/-- The only columns that depend on the others are flexible ones with a width. -/
theorem mapTabular_cases (s : ColumnSpec) :
    (∀ total total', s.mapTabular total = s.mapTabular total') ∨
      s.kind = .flexibleRatio ∧ ∃ w, s.effectiveWidth? = some w := by
  cases hkind : s.kind with
  | flexibleRatio =>
    cases hwidth : s.effectiveWidth? with
    | none => exact .inl fun _ _ => by simp [mapTabular, hkind, hwidth]
    | some w => exact .inr ⟨rfl, w, rfl⟩
  | left | center | right => exact .inl fun _ _ => by simp [mapTabular, hkind]
  | flexibleFixed | paragraph =>
    exact .inl fun _ _ => by cases hwidth : s.effectiveWidth? <;> simp [mapTabular, hkind, hwidth]

/-- A width that is no share of the line does not depend on the total. -/
theorem shareWidth_eq_paragraphWidth {w : String}
    (h : WidthKind.ofWidth? w = some .ratio → Binary64.read? w = none) :
    shareWidth w total = paragraphWidth w := by
  unfold shareWidth
  split
  next hratio hread => exact absurd (hread.symm.trans (h hratio)) (by simp)
  next => rfl

/-- Two shares of the line differ before the unit, and widths that are no shares do not differ. -/
theorem akin_shareWidth {w : String} (htrim : trim w = w) :
    Akin (paragraphToken (shareWidth w total)).toList
      (paragraphToken (shareWidth w total')).toList := by
  by_cases hshare : WidthKind.ofWidth? w = some .ratio → Binary64.read? w = none
  · rw [shareWidth_eq_paragraphWidth hshare, shareWidth_eq_paragraphWidth hshare]
    exact .inl rfl
  · obtain ⟨hratio, hread⟩ := Classical.not_imp.mp hshare
    obtain ⟨weight, hweight⟩ := Option.ne_none_iff_exists'.mp hread
    have hw : '\\' ∉ w.toList := htrim ▸ notMem_of_ratio hratio
    have hline (total : Binary64) : ∃ v, '\\' ∉ v.toList ∧
        shareWidth w total = v ++ "\\linewidth" := by
      simp only [shareWidth, hratio, hweight, paragraphWidth, if_true]
      split
      · exact ⟨_, notMem_shareText _, rfl⟩
      · exact ⟨w, hw, rfl⟩
    obtain ⟨v, hv, heq⟩ := hline total
    obtain ⟨v', hv', heq'⟩ := hline total'
    refine .inr ⟨'p' :: '\x7b' :: v.toList, 'p' :: '\x7b' :: v'.toList, "linewidth\x7d".toList,
      ?_, ?_, ?_, ?_⟩
    · simpa using hv
    · simpa using hv'
    · simp [heq, paragraphToken]
    · simp [heq', paragraphToken]

theorem akin_mapTabular :
    Akin (s.mapTabular total).token.toList (s.mapTabular total').token.toList := by
  rcases s.mapTabular_cases with hsame | ⟨hkind, w, hw⟩
  · exact .inl (by rw [hsame total total'])
  · rw [mapTabular_flexible hkind hw, mapTabular_flexible hkind hw]
    exact akin_shareWidth (trim_effectiveWidth hw)

theorem mapTabular_eq_of_token (h : (s.mapTabular total).token = (s.mapTabular total').token) :
    s.mapTabular total = s.mapTabular total' := by
  rcases s.mapTabular_cases with hsame | ⟨hkind, w, hw⟩
  · exact hsame _ _
  · rw [mapTabular_flexible hkind hw, mapTabular_flexible hkind hw] at h ⊢
    exact congrArg (MappedColumn.fallback _ _) h

end ColumnSpec

namespace ColumnSpecs

variable {specs : ColumnSpecs} {dialect : Dialect} {n : Nat} {total total' : Binary64}
  {r r' : List Char}

/-- The registry cut or filled up with centred columns, to have `n` columns. -/
def fitted (n : Nat) (specs : ColumnSpecs) : ColumnSpecs :=
  specs.take n ++ List.replicate (n - specs.length) .default

theorem length_fitted : (specs.fitted n).length = n := by
  simp only [fitted, List.length_append, List.length_take, List.length_replicate]
  omega

theorem mapFor_eq :
    specs.mapFor dialect = specs.map (ColumnSpec.mapWith dialect specs.ratioTotal) := by
  cases dialect <;> rfl

theorem resolve_eq : specs.resolve dialect n =
    (specs.take n).map (ColumnSpec.mapWith dialect specs.ratioTotal) ++
      List.replicate (n - specs.length) .centered := by
  rw [resolve, mapFor_eq]
  simp only [List.map_take, List.length_take, List.length_map]
  congr 2
  omega

theorem resolve_fitted : (specs.fitted n).resolve dialect n =
    (specs.take n).map (ColumnSpec.mapWith dialect (specs.fitted n).ratioTotal) ++
      List.replicate (n - specs.length) .centered := by
  rw [resolve_eq, length_fitted, List.take_of_length_le length_fitted.le, Nat.sub_self]
  simp [fitted, ColumnSpec.mapWith_default]

/-- Every column of the table takes the share of the line that it would take without those that the
table has no room for. -/
def KeepsShares (dialect : Dialect) (n : Nat) (specs : ColumnSpecs) : Prop :=
  ∀ s ∈ specs.take n,
    s.mapWith dialect (specs.fitted n).ratioTotal = s.mapWith dialect specs.ratioTotal

/-- Columns without a weight may be cut off. -/
theorem ratioTotal_fitted (h : ∀ s ∈ specs.drop n, s.weight? = none) :
    (specs.fitted n).ratioTotal = specs.ratioTotal := by
  have hcut : (specs.drop n).filterMap ColumnSpec.weight? = [] := List.filterMap_eq_nil_iff.mpr h
  have hpadding : (List.replicate (n - specs.length) ColumnSpec.default).filterMap
      ColumnSpec.weight? = [] := by
    rw [List.filterMap_eq_nil_iff]
    intro s hs
    rw [List.eq_of_mem_replicate hs]
    rfl
  have hall : specs.filterMap ColumnSpec.weight? =
      (specs.take n ++ specs.drop n).filterMap ColumnSpec.weight? := by
    rw [List.take_append_drop]
  unfold ratioTotal
  rw [hall, fitted, List.filterMap_append, List.filterMap_append, hcut, hpadding]

theorem resolve_fitted_eq_iff :
    (specs.fitted n).resolve dialect n = specs.resolve dialect n ↔ KeepsShares dialect n specs := by
  rw [resolve_fitted, resolve_eq, List.append_cancel_right_eq, List.map_inj_left]
  rfl

/-- Columns in a tabular specification are told apart by the units of their shares. -/
theorem shares_inj (suffix : List Char) {ss : List ColumnSpec}
    (h : (ss.flatMap fun s => (s.mapTabular total).token.toList ++ suffix) ++ r =
      (ss.flatMap fun s => (s.mapTabular total').token.toList ++ suffix) ++ r') :
    ∀ s ∈ ss, s.mapTabular total = s.mapTabular total' := by
  induction ss with
  | nil => exact fun _ hs => nomatch hs
  | cons s ss ih =>
    simp only [List.flatMap_cons, List.append_assoc] at h
    obtain ⟨htoken, hrest⟩ := ColumnSpec.akin_mapTabular.append_inj h
    have hhead := ColumnSpec.mapTabular_eq_of_token (String.toList_injective htoken)
    have htail := ih (List.append_cancel_left hrest)
    exact List.forall_mem_cons.mpr ⟨hhead, htail⟩

end ColumnSpecs
end LatexTable
