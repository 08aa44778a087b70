import LatexTable.Column.Mapping
import LatexTable.Proofs.Text.Pieces
/-!
The columns of a table as a sequence that does not depend on its width. No token begins with a
closing brace, so a column specification in braces tells how many columns it has.
-/
namespace LatexTable
open Text

namespace ColumnSpecs

variable {specs : ColumnSpecs} {dialect : Dialect} {m n : Nat} {rest rest' : List Char}

/-- The mapped column at an index, centred behind the end of the registry. -/
def columnAt (dialect : Dialect) (specs : ColumnSpecs) (i : Nat) : MappedColumn :=
  (specs.mapFor dialect)[i]?.getD .centered

theorem resolve_eq_map : specs.resolve dialect n = (List.range n).map (specs.columnAt dialect) := by
  apply List.ext_getElem
  · simp only [resolve, List.length_append, List.length_take, List.length_replicate,
      List.length_map, List.length_range]
    omega
  · intro i hi hi'
    have hin : i < n := by simpa using hi'
    simp only [resolve, List.getElem_append, List.length_take, List.getElem_take,
      List.getElem_replicate, List.getElem_map, List.getElem_range, columnAt]
    split
    next hlt => rw [List.getElem?_eq_getElem (by omega), Option.getD_some]
    next hge => rw [List.getElem?_eq_none (by omega), Option.getD_none]

@[simp] theorem length_resolve : (specs.resolve dialect n).length = n := by
  rw [resolve_eq_map, List.length_map, List.length_range]

/-- The token of a column begins with a letter. -/
def Opened (c : MappedColumn) : Prop :=
  ∃ d ∈ ['l', 'c', 'r', 'p', 'X', 'Q'], c.token.toList.head? = some d

theorem mapModern_opened (s : ColumnSpec) : Opened s.mapModern := by
  unfold ColumnSpec.mapModern
  split <;> (try split) <;>
    simp [Opened, MappedColumn.native, MappedColumn.fallback, ColumnSpec.paragraphToken]

theorem mapTabular_opened (total : Decimal.Binary64) (s : ColumnSpec) :
    Opened (s.mapTabular total) := by
  unfold ColumnSpec.mapTabular
  split <;> simp [Opened, MappedColumn.native, MappedColumn.fallback, ColumnSpec.paragraphToken]

theorem Opened.exists_cons {c : MappedColumn} (h : Opened c) :
    ∃ d ds, c.token.toList = d :: ds ∧ d ≠ '\x7d' := by
  obtain ⟨d, hd, hhead⟩ := h
  obtain ⟨ds, hds⟩ := List.head?_eq_some_iff.mp hhead
  exact ⟨d, ds, hds, fun heq => by simp [heq] at hd⟩

theorem columnAt_opened (i : Nat) : Opened (specs.columnAt dialect i) := by
  unfold columnAt
  cases hi : (specs.mapFor dialect)[i]? with
  | none => exact ⟨'c', by decide, rfl⟩
  | some c =>
    have hmem := List.mem_of_getElem? hi
    unfold mapFor at hmem
    cases dialect with
    | modern =>
      obtain ⟨s, -, rfl⟩ := List.mem_map.mp hmem
      exact mapModern_opened s
    | plain | rules =>
      obtain ⟨s, -, rfl⟩ := List.mem_map.mp hmem
      exact mapTabular_opened _ s

/-- A specification in braces tells the number of its columns. -/
theorem resolve_inj (suffix : String)
    (h : (String.join ((specs.resolve dialect m).map (·.token ++ suffix))).toList ++
        '\x7d' :: rest =
      (String.join ((specs.resolve dialect n).map (·.token ++ suffix))).toList ++
        '\x7d' :: rest') :
    m = n ∧ rest = rest' := by
  simp only [resolve_eq_map, String.toList_join, List.map_map, List.flatMap_map] at h
  apply range_flatMap_inj (fun i => ?_) h
  have hopened : Opened (specs.columnAt dialect i) := columnAt_opened i
  obtain ⟨d, ds, hd, hne⟩ := hopened.exists_cons
  exact ⟨d, ds ++ suffix.toList, by simp [hd], hne⟩

end ColumnSpecs
end LatexTable
