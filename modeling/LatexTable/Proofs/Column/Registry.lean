import LatexTable.Column.Spec
import LatexTable.Proofs.InPlace
import LatexTable.Proofs.Text.Blank
/-!
The registry of columns: how many entries an operation leaves, when it is refused, that it leaves
the registry as it was then, and that the widths it stores are the ones it has accepted.
-/
namespace LatexTable
open Result

namespace ColumnSpecs
open InPlace

variable {specs : ColumnSpecs} {col pos : Nat} {kind : ColumnKind} {width : Option String}

theorem insertDefaultInPlace_eq : specs.insertDefaultInPlace pos =
    if specs.length < pos then (.error (specs.outOfBounds pos), specs)
    else (.ok (), specs.take pos ++ .default :: specs.drop pos) := by
  unfold insertDefaultInPlace
  split <;> rfl

theorem insertDefault_eq : specs.insertDefault pos =
    if specs.length < pos then .error (specs.outOfBounds pos)
    else .ok (specs.take pos ++ .default :: specs.drop pos) := by
  rw [insertDefault, insertDefaultInPlace_eq]
  split <;> rfl

theorem remove_eq : specs.remove col = do
    specs.check col
    return specs.eraseIdx col := by
  rw [remove, removeInPlace, changed_ask_bind]
  rfl

theorem setKind_eq : specs.setKind col kind = do
    specs.check col
    return specs.modify col fun s => { s with kind } := by
  rw [setKind, setKindInPlace, changed_ask_bind]
  rfl

theorem setWidth_eq : specs.setWidth col width = do
    specs.check col
    match width.bind Text.nonBlank? with
    | none => return specs.modify col fun s => { s with width := none }
    | some w =>
      if (WidthKind.ofWidth? w).isNone then .error (.invalidDimension w)
      else return specs.modify col fun s => { s with width := some w } := by
  rw [setWidth, setWidthInPlace, changed_ask_bind]
  refine bind_congr fun _ => ?_
  cases width.bind Text.nonBlank? with
  | none => rfl
  | some w =>
    dsimp only
    split <;> rfl

theorem insertDefault_atomic : Atomic specs (specs.insertDefaultInPlace pos) := by
  rw [insertDefaultInPlace_eq]
  split
  · exact .of_error
  · exact .of_ok

theorem remove_atomic : Atomic specs (specs.removeInPlace col) := .ask_bind fun _ _ => .of_ok

theorem setKind_atomic (kind : ColumnKind) : Atomic specs (specs.setKindInPlace col kind) :=
  .ask_bind fun _ _ => .of_ok

theorem setWidth_atomic (width : Option String) :
    Atomic specs (specs.setWidthInPlace col width) := by
  refine .ask_bind fun _ _ => ?_
  cases width.bind Text.nonBlank? with
  | none => exact .of_ok
  | some w =>
    dsimp only
    split
    · exact .of_error
    · exact .of_ok

end ColumnSpecs

/-- A width is read without the white space around it. -/
theorem WidthKind.ofWidth?_trim (w : String) : ofWidth? (Text.trim w) = ofWidth? w := by
  simp only [ofWidth?, Text.trim_trim]

/-- The stored width, if there is one, is trimmed, not blank, and a width. -/
def ColumnSpec.Accepted (s : ColumnSpec) : Prop :=
  ∀ w, s.width = some w → Text.trim w = w ∧ w ≠ "" ∧ (WidthKind.ofWidth? w).isSome = true

/-- The width of the column is absent or one that the registry accepts. -/
def ColumnSpec.Admitted (s : ColumnSpec) : Prop :=
  ∃ specs, ColumnSpecs.setWidth [s] 0 s.width = .ok specs

instance (s : ColumnSpec) : Decidable s.Admitted :=
  match h : ColumnSpecs.setWidth [s] 0 s.width with
  | .ok specs => isTrue ⟨specs, h⟩
  | .error _ => isFalse fun ⟨_, hok⟩ => nomatch h.symm.trans hok

namespace ColumnSpec

variable {s : ColumnSpec} {w : String}

theorem trim_effectiveWidth (h : s.effectiveWidth? = some w) : Text.trim w = w := by
  simp only [effectiveWidth?, Option.ite_none_right_eq_some, Option.bind_eq_some_iff] at h
  obtain ⟨-, v, -, hv⟩ := h
  rw [← (Text.nonBlank?_eq_some.mp hv).1, Text.trim_trim]

theorem Admitted.effectiveWidth (h : s.Admitted) (hw : s.effectiveWidth? = some w) :
    Text.trim w = w ∧ (WidthKind.ofWidth? w).isSome = true := by
  refine ⟨trim_effectiveWidth hw, ?_⟩
  obtain ⟨specs, hset⟩ := h
  simp only [effectiveWidth?, Option.ite_none_right_eq_some] at hw
  simp only [ColumnSpecs.setWidth_eq, check_bind_eq_ok, hw.2] at hset
  by_contra hnone
  simp [Option.not_isSome_iff_eq_none.mp hnone] at hset

end ColumnSpec

namespace ColumnSpecs

variable {specs specs' : ColumnSpecs} {col pos : Nat} {kind : ColumnKind} {width : Option String}
  {err : TableError}

theorem check_eq_ok_iff : specs.check col = .ok () ↔ col < specs.length := by
  unfold check
  split <;> simp_all

theorem check_of_lt (h : col < specs.length) : specs.check col = .ok () := check_eq_ok_iff.mpr h

theorem insertDefault_of_le (h : pos ≤ specs.length) :
    specs.insertDefault pos = .ok (specs.take pos ++ .default :: specs.drop pos) := by
  rw [insertDefault_eq, if_neg h.not_gt]

theorem remove_of_lt (h : col < specs.length) : specs.remove col = .ok (specs.eraseIdx col) := by
  rw [remove_eq, check_of_lt h]
  rfl

theorem length_inserted (h : pos ≤ specs.length) :
    (specs.take pos ++ .default :: specs.drop pos : ColumnSpecs).length = specs.length + 1 := by
  simp
  omega

/-- Kind and width are changed in place. -/
theorem setKind_eq_ok (h : specs.setKind col kind = .ok specs') :
    specs' = specs.modify col fun s => { s with kind } := by
  simp only [setKind_eq, check_bind_eq_ok, pure_eq_ok] at h
  obtain ⟨-, rfl⟩ := h
  rfl

/-- A width is stored without its surrounding white space; a blank one clears. -/
theorem setWidth_eq_ok_iff : specs.setWidth col width = .ok specs' ↔ col < specs.length ∧
    (∀ w ∈ width, Text.trim w = "" ∨ (WidthKind.ofWidth? w).isSome = true) ∧
      specs' = specs.modify col fun s => { s with width := width.bind Text.nonBlank? } := by
  simp only [setWidth_eq, check_bind_eq_ok, check_eq_ok_iff]
  refine and_congr_right fun _ => ?_
  cases width with
  | none => simp [pure_eq_ok]
  | some w =>
    simp only [Option.bind_some, Option.mem_some_iff, forall_eq']
    cases hblank : Text.nonBlank? w with
    | none => simp [pure_eq_ok, Text.nonBlank?_eq_none.mp hblank]
    | some v =>
      obtain ⟨rfl, hne⟩ := Text.nonBlank?_eq_some.mp hblank
      dsimp only
      rw [WidthKind.ofWidth?_trim]
      cases WidthKind.ofWidth? w with
      | none => simp [hne]
      | some kind => simp [pure_eq_ok]

theorem setWidth_eq_ok (h : specs.setWidth col width = .ok specs') :
    ∃ stored, specs' = specs.modify col (fun s => { s with width := stored }) ∧
      ColumnSpec.Accepted { width := stored } := by
  obtain ⟨-, hwidth, rfl⟩ := setWidth_eq_ok_iff.mp h
  refine ⟨_, rfl, fun v hv => ?_⟩
  obtain ⟨w, rfl, hw⟩ := Option.bind_eq_some_iff.mp hv
  obtain ⟨rfl, hne⟩ := Text.nonBlank?_eq_some.mp hw
  exact ⟨Text.trim_trim, hne, by
    rw [WidthKind.ofWidth?_trim]
    exact (hwidth w rfl).resolve_left hne⟩

theorem check_eq_error_iff :
    specs.check col = .error err ↔ specs.length ≤ col ∧ err = specs.outOfBounds col := by
  unfold check
  split
  next hlt => simp [hlt.not_ge]
  next hle => simpa [Nat.le_of_not_lt hle] using eq_comm

theorem setKind_eq_error_iff :
    specs.setKind col kind = .error err ↔ specs.length ≤ col ∧ err = specs.outOfBounds col := by
  rw [setKind_eq, bind_pure_eq_error, check_eq_error_iff]

theorem setWidth_eq_error_iff :
    specs.setWidth col width = .error err ↔
      (specs.length ≤ col ∧ err = specs.outOfBounds col) ∨
        col < specs.length ∧ ∃ w, width = some w ∧ Text.trim w ≠ "" ∧
          WidthKind.ofWidth? w = none ∧ err = .invalidDimension (Text.trim w) := by
  simp only [setWidth_eq, check_bind_eq_error, check_eq_error_iff, check_eq_ok_iff]
  refine or_congr_right (and_congr_right fun _ => ?_)
  cases width with
  | none => simp [pure_ne_error]
  | some w =>
    simp only [Option.bind_some, Option.some.injEq, exists_eq_left']
    cases hblank : Text.nonBlank? w with
    | none => simp [pure_ne_error, Text.nonBlank?_eq_none.mp hblank]
    | some v =>
      obtain ⟨rfl, hne⟩ := Text.nonBlank?_eq_some.mp hblank
      dsimp only
      rw [WidthKind.ofWidth?_trim]
      cases WidthKind.ofWidth? w with
      | none => simpa [hne] using eq_comm
      | some kind => simp [pure_ne_error]

/-- Every stored width of the registry is accepted. -/
def Accepted (specs : ColumnSpecs) : Prop := ∀ s ∈ specs, s.Accepted

theorem default_accepted : ColumnSpec.default.Accepted := fun _ h => nomatch h

theorem blank_accepted (n : Nat) : (blank n).Accepted := by
  intro s hs
  rw [List.eq_of_mem_replicate hs]
  exact default_accepted

namespace Accepted

theorem pushDefault (h : specs.Accepted) : specs.pushDefault.Accepted := by
  intro s hs
  obtain hs | rfl : s ∈ specs ∨ s = .default := by simpa [ColumnSpecs.pushDefault] using hs
  · exact h s hs
  · exact default_accepted

theorem insertDefault (h : specs.Accepted) (hi : specs.insertDefault pos = .ok specs') :
    specs'.Accepted := by
  rw [insertDefault_eq] at hi
  split at hi <;> cases hi
  intro s hs
  obtain hs | rfl | hs : s ∈ specs.take pos ∨ s = .default ∨ s ∈ specs.drop pos := by
    simpa using hs
  · exact h s (List.mem_of_mem_take hs)
  · exact default_accepted
  · exact h s (List.mem_of_mem_drop hs)

theorem remove (h : specs.Accepted) (hr : specs.remove col = .ok specs') : specs'.Accepted := by
  simp only [remove_eq, check_bind_eq_ok, pure_eq_ok] at hr
  obtain ⟨-, rfl⟩ := hr
  exact fun s hs => h s (List.mem_of_mem_eraseIdx hs)

theorem modified (h : specs.Accepted) {f : ColumnSpec → ColumnSpec}
    (hf : ∀ s, s.Accepted → (f s).Accepted) : Accepted (specs.modify col f) := by
  intro s hs
  obtain ⟨i, hi, rfl⟩ := List.mem_iff_getElem.mp hs
  rw [List.getElem_modify]
  split
  · exact hf _ (h _ (List.getElem_mem _))
  · exact h _ (List.getElem_mem _)

theorem setKind (h : specs.Accepted) (hs : specs.setKind col kind = .ok specs') :
    specs'.Accepted := by
  rw [setKind_eq_ok hs]
  exact h.modified fun s hs => hs

theorem setWidth (h : specs.Accepted) (hs : specs.setWidth col width = .ok specs') :
    specs'.Accepted := by
  obtain ⟨stored, rfl, hstored⟩ := setWidth_eq_ok hs
  exact h.modified fun s _ => hstored

theorem insertDefaultInPlace (h : specs.Accepted) : Accepted (specs.insertDefaultInPlace pos).2 :=
  insertDefault_atomic.cases h fun _ => h.insertDefault

theorem removeInPlace (h : specs.Accepted) : Accepted (specs.removeInPlace col).2 :=
  remove_atomic.cases h fun _ => h.remove

theorem setKindInPlace (h : specs.Accepted) : Accepted (specs.setKindInPlace col kind).2 :=
  (setKind_atomic kind).cases h fun _ => h.setKind

theorem setWidthInPlace (h : specs.Accepted) : Accepted (specs.setWidthInPlace col width).2 :=
  (setWidth_atomic width).cases h fun _ => h.setWidth

end Accepted
end ColumnSpecs
end LatexTable
