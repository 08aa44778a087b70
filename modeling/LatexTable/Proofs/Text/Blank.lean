import LatexTable.Text.Blank
import Mathlib.Data.List.DropRight
/-!
Trimming, on characters: it takes off blanks at both ends and nothing else.
-/
namespace LatexTable.Text

variable {p : Char → Bool} {a b cs : List Char} {s t : String}

/-- A text that does not end in a blank keeps everything before its own end. -/
theorem dropEndWhile_append (h : ∃ c ∈ b, p c = false) :
    dropEndWhile p (a ++ b) = a ++ dropEndWhile p b := by
  obtain ⟨c, hc, hp⟩ := h
  have hne : b.reverse.dropWhile p ≠ [] := by
    rw [ne_eq, List.dropWhile_eq_nil_iff, not_forall]
    exact ⟨c, by simp [hc, hp]⟩
  unfold dropEndWhile
  rw [List.reverse_append, List.dropWhile_append, if_neg (by simpa using hne)]
  simp

/-- The characters of a trimmed text. -/
def trimmed (cs : List Char) : List Char := dropEndWhile isBlank (dropBlanks cs)

@[simp] theorem toList_trim : (trim s).toList = trimmed s.toList := String.toList_ofList

theorem trimmed_prefix_dropBlanks : trimmed cs <+: dropBlanks cs :=
  List.rdropWhile_prefix isBlank (dropBlanks cs)

theorem dropBlanks_of_prefix (h : a <+: dropBlanks cs) : dropBlanks a = a := by
  obtain ⟨b, hb⟩ := h
  cases a with
  | nil => rfl
  | cons c a =>
    have hc := List.head?_dropWhile_not isBlank cs
    rw [show cs.dropWhile isBlank = c :: a ++ b from hb.symm] at hc
    exact List.dropWhile_cons_of_neg (by simpa using hc)

theorem trimmed_trimmed : trimmed (trimmed cs) = trimmed cs := by
  rw [trimmed, dropBlanks_of_prefix trimmed_prefix_dropBlanks]
  exact List.rdropWhile_idempotent isBlank (dropBlanks cs)

theorem trimmed_of_no_blank (h : ∀ c ∈ cs, isBlank c = false) : trimmed cs = cs := by
  have hdrop : dropBlanks cs = cs := by
    cases cs with
    | nil => rfl
    | cons c cs => exact List.dropWhile_cons_of_neg (by simp [h c List.mem_cons_self])
  rw [trimmed, hdrop]
  exact List.rdropWhile_eq_self_iff.mpr fun hne => by simp [h _ (List.getLast_mem hne)]

theorem trimmed_subset : trimmed cs ⊆ cs := fun _ hc =>
  (List.dropWhile_sublist isBlank).subset (trimmed_prefix_dropBlanks.subset hc)

/-- Trimming takes off blanks. -/
theorem exists_trimmed (cs : List Char) : ∃ before after, cs = before ++ (trimmed cs ++ after) ∧
    (∀ c ∈ before, isBlank c = true) ∧ ∀ c ∈ after, isBlank c = true := by
  refine ⟨cs.takeWhile isBlank, (dropBlanks cs).rtakeWhile isBlank, ?_, ?_, ?_⟩
  · have hend : trimmed cs ++ (dropBlanks cs).rtakeWhile isBlank = dropBlanks cs :=
      List.rdropWhile_append_rtakeWhile
    rw [hend]
    exact (List.takeWhile_append_dropWhile).symm
  · exact fun c => List.mem_takeWhile_imp
  · exact fun c => List.mem_rtakeWhile_imp

theorem trim_trim : trim (trim s) = trim s := by
  apply String.toList_injective
  simp [trimmed_trimmed]

theorem nonBlank?_eq_some : nonBlank? s = some t ↔ trim s = t ∧ t ≠ "" := by
  simp only [nonBlank?, Option.ite_none_left_eq_some, Option.some.injEq, String.isEmpty_iff]
  constructor
  · rintro ⟨hne, rfl⟩
    exact ⟨rfl, hne⟩
  · rintro ⟨rfl, hne⟩
    exact ⟨hne, rfl⟩

theorem nonBlank?_eq_none : nonBlank? s = none ↔ trim s = "" := by
  simp [nonBlank?]

end LatexTable.Text
