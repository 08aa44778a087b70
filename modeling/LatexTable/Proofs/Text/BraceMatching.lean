import LatexTable.Proofs.Guarded.Check
import LatexTable.Proofs.Text.BackslashRuns
/-!
Partners of braces. From left to right, every closing brace takes the last opening brace that is
still free. The scanner of braces counts the closing braces that find none and the opening braces
that are left, and finds nothing exactly when the braces make up a Dyck word.
-/
namespace LatexTable.Text
open DyckStep

/-- The braces of a kind before a place, without those that are taken. -/
def freePlaces (w : List DyckStep) (x : DyckStep) (taken : List Nat) (j : Nat) : List Nat :=
  (List.range j).filter fun i => w[i]? = some x ∧ i ∉ taken

/-- The opening braces before a place that have no partner. -/
def freeOpenings (w : List DyckStep) (pairs : List (Nat × Nat)) (j : Nat) : List Nat :=
  freePlaces w U (pairs.map Prod.fst) j

/-- The closing braces before a place that have no partner. -/
def freeClosings (w : List DyckStep) (pairs : List (Nat × Nat)) (j : Nat) : List Nat :=
  freePlaces w D (pairs.map Prod.snd) j

/-- A closing brace takes the last free opening brace before it. -/
def matchNext (w : List DyckStep) (pairs : List (Nat × Nat)) (j : Nat) : List (Nat × Nat) :=
  if w[j]? = some D then pairs ++ (freeOpenings w pairs j).getLast?.toList.map fun i => (i, j)
  else pairs

/-- The partners among the braces before a place. -/
def matchingUpTo (w : List DyckStep) (j : Nat) : List (Nat × Nat) :=
  (List.range j).foldl (matchNext w) []

/-- The partners in a word, each pair by the places of its opening and its closing brace. -/
def greedyMatching (w : List DyckStep) : List (Nat × Nat) := matchingUpTo w w.length

def loneOpenings (w : List DyckStep) : List Nat := freeOpenings w (greedyMatching w) w.length

def loneClosings (w : List DyckStep) : List Nat := freeClosings w (greedyMatching w) w.length

/-- The open braces after a word, `n` being open before it. -/
def openAfter : Nat → List DyckStep → Nat
  | n, [] => n
  | n, U :: w => openAfter (n + 1) w
  | 0, D :: w => openAfter 0 w
  | n + 1, D :: w => openAfter n w

/-- The closing braces of a word for which none is open, `n` being open before it. -/
def closedTooMany : Nat → List DyckStep → Nat
  | _, [] => 0
  | n, U :: w => closedTooMany (n + 1) w
  | 0, D :: w => closedTooMany 0 w + 1
  | n + 1, D :: w => closedTooMany n w

/-- The errors about a word of braces: one for every closing brace without partner, and a last one
with the number of opening braces without partner when there are any. -/
def braceErrors (w : List DyckStep) : List (Severity × String) :=
  (loneClosings w).map (fun _ => (.error, "unmatched closing brace '\x7d'")) ++
    match (loneOpenings w).length with
    | 0 => []
    | 1 => [(.error, "1 unclosed brace")]
    | n => [(.error, toString n ++ " unclosed braces")]

/-- What there is to report about a word of braces, `n` being open before it. -/
def wordFaults (n : Nat) (w : List DyckStep) : List BraceFault :=
  List.replicate (closedTooMany n w) .unmatchedClosing ++
    if openAfter n w = 0 then [] else [.unclosed (openAfter n w)]

variable {w : List DyckStep} {x : DyckStep} {pairs : List (Nat × Nat)} {taken : List Nat}
  {cs : List Char} {n k : Nat} {e : Bool}

section Counting

theorem openAfter_concat_up (w : List DyckStep) : openAfter n (w ++ [U]) = openAfter n w + 1 := by
  fun_induction openAfter n w with
  | case1 n => rfl
  | case2 n w ih | case3 w ih | case4 n w ih => exact ih

theorem openAfter_concat_down (w : List DyckStep) :
    openAfter n (w ++ [D]) = openAfter n w - 1 := by
  fun_induction openAfter n w with
  | case1 n => cases n <;> rfl
  | case2 n w ih | case3 w ih | case4 n w ih => exact ih

theorem closedTooMany_concat_up (w : List DyckStep) :
    closedTooMany n (w ++ [U]) = closedTooMany n w := by
  fun_induction closedTooMany n w with
  | case1 n => rfl
  | case2 n w ih | case4 n w ih => exact ih
  | case3 w ih => exact congrArg (· + 1) ih

theorem closedTooMany_concat_down (w : List DyckStep) : closedTooMany n (w ++ [D]) =
    closedTooMany n w + if openAfter n w = 0 then 1 else 0 := by
  fun_induction closedTooMany n w with
  | case1 n => cases n <;> rfl
  | case2 n w ih | case4 n w ih => exact ih
  | case3 w ih =>
    rw [List.cons_append, closedTooMany, ih, openAfter]
    omega

/-- Every closing brace closes one that is open, or is one too many. -/
theorem openAfter_add_count (n : Nat) (w : List DyckStep) :
    openAfter n w + w.count D = n + w.count U + closedTooMany n w := by
  fun_induction openAfter n w <;> simp_all [closedTooMany] <;> omega

/-- The scanner reports the braces that are too many one by one, and then those left open. -/
theorem braceFaultsFrom_eq : braceFaultsFrom n e cs = wordFaults n (bracesFrom e cs) := by
  induction cs generalizing n e with
  | nil => rfl
  | cons c cs ih =>
    rw [braceFaultsFrom.eq_def]
    dsimp only
    split
    next hback =>
      have hword : bracesFrom e (c :: cs) = bracesFrom (!e) cs := by
        subst hback
        cases e <;> rfl
      rw [hword, ih]
    next hback =>
      have hescapes : escapesNext e c = false := by simp [escapesNext, hback]
      split
      next hopen =>
        have hword : bracesFrom e (c :: cs) = U :: bracesFrom false cs := by
          simp_all [bracesFrom, brace?]
        rw [hword, ih]
        rfl
      next hopen =>
        split
        next hclose =>
          have hword : bracesFrom e (c :: cs) = D :: bracesFrom false cs := by
            simp_all [bracesFrom, brace?]
          rw [hword]
          cases n with
          | zero => exact congrArg (.unmatchedClosing :: ·) ih
          | succ n => exact ih
        next hclose =>
          have hword : bracesFrom e (c :: cs) = bracesFrom false cs := by
            cases e <;> simp_all [bracesFrom, brace?]
          rw [hword, ih]

/-- The prefixes of a word, after its first brace. -/
theorem forall_take_cons {P : List DyckStep → Prop} :
    (∀ i, P ((x :: w).take i)) ↔ P [] ∧ ∀ i, P (x :: w.take i) := by
  constructor
  · exact fun h => ⟨h 0, fun i => h (i + 1)⟩
  · rintro ⟨hnil, hcons⟩ (_ | i)
    · exact hnil
    · exact hcons i

theorem closedTooMany_eq_zero_iff : closedTooMany n w = 0 ↔
    ∀ i, (w.take i).count D ≤ n + (w.take i).count U := by
  fun_induction closedTooMany n w with
  | case1 n => simp
  | case2 n w ih =>
    rw [ih, forall_take_cons (P := fun v => v.count D ≤ n + v.count U)]
    simp [Nat.add_assoc, Nat.add_comm 1]
  | case3 w ih =>
    refine iff_of_false (Nat.succ_ne_zero _) fun h => ?_
    have hfirst := h 1
    simp at hfirst
  | case4 n w ih =>
    rw [ih, forall_take_cons (P := fun v => v.count D ≤ n + 1 + v.count U)]
    simp [Nat.add_right_comm]

theorem exists_dyckWord_iff :
    (∃ p : DyckWord, p.toList = w) ↔ closedTooMany 0 w = 0 ∧ openAfter 0 w = 0 := by
  have hcount := openAfter_add_count 0 w
  constructor
  · rintro ⟨p, rfl⟩
    have hzero : closedTooMany 0 p.toList = 0 :=
      closedTooMany_eq_zero_iff.mpr fun i => by simpa using p.count_D_le_count_U i
    have hequal := p.count_U_eq_count_D
    omega
  · rintro ⟨hzero, hsettled⟩
    have hprefix := closedTooMany_eq_zero_iff.mp hzero
    exact ⟨⟨w, by omega, fun i => by simpa using hprefix i⟩, rfl⟩

end Counting

section Matching

/-- After any number of places the pairs join an opening brace to a closing one behind it, as many
opening braces are free as the count of open braces says, and as many closing ones as the count of
those that are too many. -/
structure MatchedUpTo (w : List DyckStep) (k : Nat) (pairs : List (Nat × Nat)) : Prop where
  partners : ∀ p ∈ pairs, w[p.1]? = some U ∧ w[p.2]? = some D ∧ p.1 < p.2 ∧ p.2 < k
  openings : (freeOpenings w pairs k).length = openAfter 0 (w.take k)
  closings : (freeClosings w pairs k).length = closedTooMany 0 (w.take k)

theorem freePlaces_succ (h : k ∉ taken) : freePlaces w x taken (k + 1) =
    freePlaces w x taken k ++ if w[k]? = some x then [k] else [] := by
  rw [freePlaces, List.range_succ, List.filter_append, ← freePlaces]
  by_cases hk : w[k]? = some x <;> simp [hk, h]

theorem freePlaces_concat (i : Nat) : freePlaces w x (taken ++ [i]) k =
    (freePlaces w x taken k).filter (· != i) := by
  rw [freePlaces, freePlaces, List.filter_filter]
  refine List.filter_congr fun j _ => ?_
  rw [Bool.eq_iff_iff]
  simp only [decide_eq_true_eq, Bool.and_eq_true, List.mem_append, List.mem_singleton, not_or,
    bne_iff_ne]
  tauto

theorem freePlaces_nodup : (freePlaces w x taken k).Nodup := List.nodup_range.filter _

theorem lt_of_mem_freePlaces {i : Nat} (h : i ∈ freePlaces w x taken k) : i < k :=
  List.mem_range.mp (List.mem_filter.mp h).1

theorem getElem?_of_mem_freePlaces {i : Nat} (h : i ∈ freePlaces w x taken k) : w[i]? = some x :=
  (of_decide_eq_true (List.mem_filter.mp h).2).1

namespace MatchedUpTo

variable (h : MatchedUpTo w k pairs)
include h

theorem notMem : k ∉ pairs.map Prod.fst ∧ k ∉ pairs.map Prod.snd := by
  constructor <;>
    · intro hk
      obtain ⟨p, hp, rfl⟩ := List.mem_map.mp hk
      obtain ⟨-, -, hbefore, hbelow⟩ := h.partners p hp
      omega

theorem partners_succ : ∀ p ∈ pairs,
    w[p.1]? = some U ∧ w[p.2]? = some D ∧ p.1 < p.2 ∧ p.2 < k + 1 := fun p hp =>
  have ⟨hopening, hclosing, hbefore, hbelow⟩ := h.partners p hp
  ⟨hopening, hclosing, hbefore, Nat.lt_succ_of_lt hbelow⟩

/-- An opening brace is free at first. -/
theorem opening (hk : w[k]? = some U) : MatchedUpTo w (k + 1) pairs where
  partners := h.partners_succ
  openings := by
    rw [List.take_add_one, hk, Option.toList_some, openAfter_concat_up, ← h.openings, freeOpenings,
      freePlaces_succ h.notMem.1, if_pos hk, List.length_append]
    rfl
  closings := by
    rw [List.take_add_one, hk, Option.toList_some, closedTooMany_concat_up, ← h.closings,
      freeClosings, freePlaces_succ h.notMem.2, hk, if_neg (by simp), List.append_nil]
    rfl

/-- A closing brace stays free where no opening brace is. -/
theorem closing_free (hk : w[k]? = some D) (hfree : freeOpenings w pairs k = []) :
    MatchedUpTo w (k + 1) pairs := by
  have hopen : openAfter 0 (w.take k) = 0 := by rw [← h.openings, hfree, List.length_nil]
  constructor
  case partners => exact h.partners_succ
  case openings =>
    rw [List.take_add_one, hk, Option.toList_some, openAfter_concat_down, hopen, freeOpenings,
      freePlaces_succ h.notMem.1, ← freeOpenings, hfree, hk]
    rfl
  case closings =>
    rw [List.take_add_one, hk, Option.toList_some, closedTooMany_concat_down, if_pos hopen,
      ← h.closings, freeClosings, freePlaces_succ h.notMem.2, if_pos hk, List.length_append]
    rfl

/-- A closing brace takes away the free opening brace that becomes its partner. -/
theorem closing_taken {i : Nat} (hk : w[k]? = some D) (hi : i ∈ freeOpenings w pairs k) :
    MatchedUpTo w (k + 1) (pairs ++ [(i, k)]) := by
  have hik : i < k := lt_of_mem_freePlaces hi
  have hopen : 0 < openAfter 0 (w.take k) := h.openings ▸ List.length_pos_of_mem hi
  have hremoved : (freeOpenings w pairs k).erase i = (freeOpenings w pairs k).filter (· != i) :=
    List.Nodup.erase_eq_filter freePlaces_nodup i
  have hkept : (freeClosings w pairs k).filter (· != k) = freeClosings w pairs k :=
    List.filter_eq_self.mpr fun j hj => by simpa using (lt_of_mem_freePlaces hj).ne
  constructor
  case partners =>
    intro p hp
    rcases List.mem_append.mp hp with hp | hp
    · exact h.partners_succ p hp
    · rw [List.mem_singleton.mp hp]
      exact ⟨getElem?_of_mem_freePlaces hi, hk, hik, Nat.lt_succ_self k⟩
  case openings =>
    rw [List.take_add_one, hk, Option.toList_some, openAfter_concat_down, ← h.openings,
      ← List.length_erase_of_mem hi, hremoved, freeOpenings, List.map_append, List.map_singleton,
      freePlaces_concat, freePlaces_succ h.notMem.1, hk, if_neg (by simp), List.append_nil]
    rfl
  case closings =>
    rw [List.take_add_one, hk, Option.toList_some, closedTooMany_concat_down,
      if_neg hopen.ne', Nat.add_zero, ← h.closings, freeClosings, List.map_append,
      List.map_singleton, freePlaces_concat, freePlaces_succ h.notMem.2, if_pos hk,
      List.filter_append, ← freeClosings, hkept]
    simp

theorem next (hk : k < w.length) : MatchedUpTo w (k + 1) (matchNext w pairs k) := by
  unfold matchNext
  cases hx : w[k] with
  | U =>
    have hu : w[k]? = some U := by rw [List.getElem?_eq_getElem hk, hx]
    rw [if_neg (by simp [hu])]
    exact h.opening hu
  | D =>
    have hd : w[k]? = some D := by rw [List.getElem?_eq_getElem hk, hx]
    rw [if_pos hd]
    cases hlast : (freeOpenings w pairs k).getLast? with
    | none =>
      rw [List.getLast?_eq_none_iff] at hlast
      simpa using h.closing_free hd hlast
    | some i => exact h.closing_taken hd (List.mem_of_getLast? hlast)

end MatchedUpTo

theorem matchedUpTo (hk : k ≤ w.length) : MatchedUpTo w k (matchingUpTo w k) := by
  induction k with
  | zero => exact ⟨nofun, rfl, rfl⟩
  | succ k ih =>
    rw [matchingUpTo, List.range_succ, List.foldl_concat]
    exact (ih (Nat.le_of_succ_le hk)).next hk

/-- The scanner of braces sees the braces behind even runs only. -/
theorem braceFaults_eq (s : String) : braceFaults s = wordFaults 0 (bareBraces s.toList) := by
  rw [braceFaults, braceFaultsFrom_eq, bareBraces_eq]

/-- The counts are those of the closing and of the opening braces without partner. -/
theorem wordFaults_eq (w : List DyckStep) : wordFaults 0 w =
    List.replicate (loneClosings w).length .unmatchedClosing ++
      if (loneOpenings w).length = 0 then [] else [.unclosed (loneOpenings w).length] := by
  have hmatched := matchedUpTo (w := w) le_rfl
  rw [loneClosings, loneOpenings, greedyMatching, hmatched.closings, hmatched.openings,
    List.take_length, wordFaults]

theorem wordFaults_eq_nil_iff : wordFaults 0 w = [] ↔ ∃ p : DyckWord, p.toList = w := by
  rw [exists_dyckWord_iff, wordFaults]
  simp

/-- The messages of the errors, with the number of open braces in words. -/
theorem map_braceDiagnostic (s : String) (row col : Nat) :
    ((wordFaults 0 w).map (braceDiagnostic s row col)).map (fun d => (d.severity, d.message)) =
      braceErrors w := by
  rw [wordFaults_eq, braceErrors, List.map_append, List.map_append, List.map_replicate,
    List.map_replicate, List.map_const']
  congr 1
  rcases (loneOpenings w).length with _ | _ | n
  · rfl
  · rfl
  · simp [braceDiagnostic, Diagnostic.withSource, Diagnostic.withSuggestion, Diagnostic.atCell,
      String.append_assoc]

end Matching

/-- The scanners compute what the runs of backslashes say. An ampersand is found exactly when some
`&` stands behind an even run. The errors about braces count those, among the braces behind even
runs, that the matching leaves alone, and there are none exactly when these braces make up a Dyck
word; the counter of a text with less than 2 ^ 31 braces stays in its range. -/
theorem scanners_read_runs (s : String) :
    (hasBareAmpersand s = true ↔
      ∃ before after, s.toList = before ++ '&' :: after ∧ Even (backslashRun before)) ∧
    (braceCount s.toList < 2 ^ 31 → Guarded.braceFaults s = .ok (braceFaults s)) ∧
    (∀ row col, ((braceFaults s).map (braceDiagnostic s row col)).map
      (fun d => (d.severity, d.message)) = braceErrors (bareBraces s.toList)) ∧
    (braceFaults s = [] ↔ ∃ p : DyckWord, p.toList = bareBraces s.toList) := by
  refine ⟨hasBareAmpersand_iff, fun hfew => ?_, fun row col => ?_, ?_⟩
  · exact Guarded.braceFaultsFrom_eq (by rwa [Nat.zero_add])
  · rw [braceFaults_eq, map_braceDiagnostic]
  · rw [braceFaults_eq, wordFaults_eq_nil_iff]

theorem scanners_read_runs_mixed :
    braceCount "\\\\\x7b\\\x7d\x7d\x7d\x7b".toList < 2 ^ 31 ∧
    Guarded.braceFaults "\\\\\x7b\\\x7d\x7d\x7d\x7b" = .ok [.unmatchedClosing, .unclosed 1] := by
  have hfew : braceCount "\\\\\x7b\\\x7d\x7d\x7d\x7b".toList < 2 ^ 31 := by decide
  have hfaults : braceFaults "\\\\\x7b\\\x7d\x7d\x7d\x7b" = [.unmatchedClosing, .unclosed 1] := by
    decide
  exact ⟨hfew, hfaults ▸ (scanners_read_runs _).2.1 hfew⟩

end LatexTable.Text
