import LatexTable.Proofs.Text.Scan
import Mathlib.Algebra.Group.Nat.Even
import Mathlib.Combinatorics.Enumerative.DyckWord
/-!
Escapes read off the text. A character is escaped when an odd number of backslashes stands directly
before it, so what the scanners know at a place depends on the run of backslashes that ends there.
The braces that are not escaped make up a word.
-/
namespace LatexTable.Text

/-- The number of backslashes at the end of a text. -/
def backslashRun (cs : List Char) : Nat := (cs.rtakeWhile (· = '\\')).length

/-- The step that a brace is: up for an opening one, down for a closing one. -/
def brace? (c : Char) : Option DyckStep :=
  if c = '\x7b' then some .U else if c = '\x7d' then some .D else none

/-- The brace at a place of a text, when the run of backslashes before it is even. -/
def bareBraceAt? (cs : List Char) (i : Nat) : Option DyckStep :=
  if Even (backslashRun (cs.take i)) then cs[i]?.bind brace? else none

/-- The braces of a text that are not escaped, from left to right. -/
def bareBraces (cs : List Char) : List DyckStep :=
  (List.range cs.length).filterMap (bareBraceAt? cs)

/-- The braces in the rest of a text; `escaped` tells that the next character is. -/
def bracesFrom : Bool → List Char → List DyckStep
  | _, [] => []
  | escaped, c :: cs =>
    (if escaped then none else brace? c).toList ++ bracesFrom (escapesNext escaped c) cs

variable {cs before : List Char} {c : Char} {e : Bool} {s : String}

theorem backslashRun_concat :
    backslashRun (cs ++ [c]) = if c = '\\' then backslashRun cs + 1 else 0 := by
  rw [backslashRun, List.rtakeWhile_concat]
  by_cases hc : c = '\\' <;> simp [hc, backslashRun]

/-- A backslash is pending behind a run of odd length. -/
theorem pending_eq_false_iff : pending false cs = false ↔ Even (backslashRun cs) := by
  induction cs using List.reverseRecOn with
  | nil => simp [pending, backslashRun]
  | append_singleton cs c ih =>
    rw [pending_append, backslashRun_concat, pending, pending, escapesNext]
    by_cases hc : c = '\\'
    · rw [if_pos hc, Nat.even_add_one, ← ih]
      simp [hc]
    · simp [hc]

theorem bareAmpersandFrom_iff : bareAmpersandFrom e cs = true ↔
    ∃ before after, cs = before ++ '&' :: after ∧ pending e before = false := by
  induction cs generalizing e with
  | nil => simp [bareAmpersandFrom]
  | cons c cs ih =>
    rw [bareAmpersandFrom_cons, Bool.or_eq_true, ih, Bool.and_eq_true, decide_eq_true_eq]
    constructor
    · rintro (⟨rfl, he⟩ | ⟨before, after, rfl, hpending⟩)
      · exact ⟨[], cs, rfl, by simpa [pending] using he⟩
      · exact ⟨c :: before, after, rfl, hpending⟩
    · rintro ⟨before, after, hcs, hpending⟩
      rcases List.cons_eq_append_iff.mp hcs with ⟨rfl, hrest⟩ | ⟨before, rfl, rfl⟩
      · obtain ⟨rfl, -⟩ := List.cons.inj hrest
        exact .inl ⟨rfl, by simpa [pending] using hpending⟩
      · exact .inr ⟨before, after, rfl, hpending⟩

/-- An `&` is bare when the run of backslashes before it is even. -/
theorem hasBareAmpersand_iff : hasBareAmpersand s = true ↔
    ∃ before after, s.toList = before ++ '&' :: after ∧ Even (backslashRun before) := by
  simp only [hasBareAmpersand, bareAmpersandFrom_iff, pending_eq_false_iff]

theorem bracesFrom_append (a b : List Char) :
    bracesFrom e (a ++ b) = bracesFrom e a ++ bracesFrom (pending e a) b := by
  induction a generalizing e with
  | nil => rfl
  | cons c a ih => simp only [List.cons_append, bracesFrom, ih, pending, List.append_assoc]

/-- What stands behind a place does not matter to it. -/
theorem bareBraceAt?_concat_of_lt {i : Nat} (hi : i < cs.length) :
    bareBraceAt? (cs ++ [c]) i = bareBraceAt? cs i := by
  rw [bareBraceAt?, bareBraceAt?, List.take_append_of_le_length hi.le,
    List.getElem?_append_left hi]

theorem bareBraces_concat : bareBraces (cs ++ [c]) =
    bareBraces cs ++ (if Even (backslashRun cs) then brace? c else none).toList := by
  have hlast : bareBraceAt? (cs ++ [c]) cs.length =
      if Even (backslashRun cs) then brace? c else none := by simp [bareBraceAt?]
  have hbefore : (List.range cs.length).filterMap (bareBraceAt? (cs ++ [c])) = bareBraces cs :=
    List.filterMap_congr fun i hi => bareBraceAt?_concat_of_lt (List.mem_range.mp hi)
  rw [bareBraces, List.length_append, List.length_singleton, List.range_succ,
    List.filterMap_append, hbefore, List.filterMap_cons, hlast]
  cases (if Even (backslashRun cs) then brace? c else none) <;> rfl

/-- The word of a text can be read character by character. -/
theorem bareBraces_eq (cs : List Char) : bareBraces cs = bracesFrom false cs := by
  induction cs using List.reverseRecOn with
  | nil => rfl
  | append_singleton cs c ih =>
    rw [bareBraces_concat, bracesFrom_append, ih, bracesFrom, bracesFrom, List.append_nil]
    cases hpending : pending false cs with
    | false => rw [if_pos (pending_eq_false_iff.mp hpending)]; rfl
    | true =>
      have hodd : ¬Even (backslashRun cs) := fun heven => by
        rw [pending_eq_false_iff.mpr heven] at hpending
        contradiction
      rw [if_neg hodd]
      rfl

end LatexTable.Text
