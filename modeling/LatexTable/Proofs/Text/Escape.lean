import LatexTable.Proofs.Text.Scan
/-!
Escaped text. Every character becomes a piece that the scanners pass over, so the whole text is
closed, whatever it was; a blank stays a blank and nothing else becomes one, so a text can be
trimmed before or after.
-/
namespace LatexTable.Text

variable {p : Char → Bool} {f : Char → List Char} {c : Char} {cs : List Char} {s : String}

section Pieces

/-- The characters that are not copied. -/
def specials : List Char := ['\\', '~', '^', '&', '%', '$', '#', '_', '\x7b', '\x7d']

theorem ne_backslash_of_not_special (h : c ∉ specials) : c ≠ '\\' := by
  rintro rfl
  exact h List.mem_cons_self

theorem escapeChar_of_not_special (h : c ∉ specials) : escapeChar c = [c] := by
  simp_all [specials, escapeChar]

/-- What a character becomes: a command without argument, itself behind a backslash, or itself. -/
theorem escapeChar_cases (c : Char) :
    (∃ name, name ≠ [] ∧ name.all Char.isAlpha = true ∧
      escapeChar c = '\\' :: name ++ ['\x7b', '\x7d']) ∨
    (c ∉ ['\\', '~', '^'] ∧ escapeChar c = ['\\', c]) ∨
    (c ∉ specials ∧ escapeChar c = [c]) := by
  by_cases hcommand : c ∈ ['\\', '~', '^']
  · left
    simp only [List.mem_cons, List.not_mem_nil, or_false] at hcommand
    rcases hcommand with rfl | rfl | rfl
    · exact ⟨"textbackslash".toList, by decide, by decide, rfl⟩
    · exact ⟨"textasciitilde".toList, by decide, by decide, rfl⟩
    · exact ⟨"textasciicircum".toList, by decide, by decide, rfl⟩
  · right
    by_cases hspecial : c ∈ specials
    · left
      exact ⟨hcommand, by simp_all [specials, escapeChar]⟩
    · exact .inr ⟨hspecial, escapeChar_of_not_special hspecial⟩

end Pieces

section Trimming

/-- Blanks at the beginning stay alone, and what follows them stays non-blank. -/
theorem dropWhile_flatMap (hpos : ∀ c, p c = true → f c = [c])
    (hneg : ∀ c, p c = false → f c ≠ [] ∧ ∀ d ∈ f c, p d = false) :
    (cs.flatMap f).dropWhile p = (cs.dropWhile p).flatMap f := by
  induction cs with
  | nil => rfl
  | cons c cs ih =>
    cases hc : p c with
    | true => simp [hpos c hc, hc, ih]
    | false =>
      obtain ⟨hne, hall⟩ := hneg c hc
      obtain ⟨d, rest, hfc⟩ := List.exists_cons_of_ne_nil hne
      have hd : p d = false := hall d (hfc ▸ List.mem_cons_self)
      simp [hc, hd, hfc]

theorem dropEndWhile_flatMap (hpos : ∀ c, p c = true → f c = [c])
    (hneg : ∀ c, p c = false → f c ≠ [] ∧ ∀ d ∈ f c, p d = false) :
    dropEndWhile p (cs.flatMap f) = (dropEndWhile p cs).flatMap f := by
  have hreverse : (cs.reverse.flatMap (List.reverse ∘ f)).dropWhile p =
      (cs.reverse.dropWhile p).flatMap (List.reverse ∘ f) := by
    apply dropWhile_flatMap
    · intro c hc
      simp [hpos c hc]
    · intro c hc
      simpa using hneg c hc
  rw [dropEndWhile, List.reverse_flatMap, hreverse, List.reverse_flatMap, dropEndWhile]
  simp [Function.comp_def]

theorem not_isBlank_specials : ∀ c ∈ specials, isBlank c = false := by
  have hall : specials.all (!isBlank ·) = true := by decide
  simpa using hall

theorem escapeChar_of_isBlank (h : isBlank c = true) : escapeChar c = [c] :=
  escapeChar_of_not_special fun hc => by simp [not_isBlank_specials c hc] at h

theorem escapeChar_of_not_isBlank (h : isBlank c = false) :
    escapeChar c ≠ [] ∧ ∀ d ∈ escapeChar c, isBlank d = false := by
  have hne : escapeChar c ≠ [] := by
    unfold escapeChar
    split_ifs <;> simp
  have hall : (escapeChar c).all (!isBlank ·) = true := by
    unfold escapeChar
    split_ifs
    · decide
    · decide
    · decide
    · have hback : isBlank '\\' = false := not_isBlank_specials '\\' List.mem_cons_self
      simp [h, hback]
    · simp [h]
  exact ⟨hne, by simpa using hall⟩

/-- A text may be trimmed before or after it is escaped. -/
theorem trim_escape : trim (escape s) = escape (trim s) := by
  apply String.toList_injective
  simp only [escape, toList_trim, String.toList_ofList, trimmed, dropBlanks,
    dropWhile_flatMap (fun _ => escapeChar_of_isBlank) fun _ => escapeChar_of_not_isBlank,
    dropEndWhile_flatMap (fun _ => escapeChar_of_isBlank) fun _ => escapeChar_of_not_isBlank]

theorem escapeChar_ne_nil (c : Char) : escapeChar c ≠ [] := by
  cases hc : isBlank c with
  | true => simp [escapeChar_of_isBlank hc]
  | false => exact (escapeChar_of_not_isBlank hc).1

theorem escape_eq_empty : escape s = "" ↔ s = "" := by
  rw [escape, String.ofList_eq_empty_iff, List.flatMap_eq_nil_iff]
  constructor
  · intro h
    rw [← String.toList_eq_nil_iff, List.eq_nil_iff_forall_not_mem]
    exact fun c hc => escapeChar_ne_nil c (h c hc)
  · rintro rfl
    simp

end Trimming

/-- A backslash takes any character out of the grammar. -/
theorem Reads.escaped (c : Char) : Reads ['\\', c] 0 false := by
  have hnext : escapesNext false '\\' = true := rfl
  have hdepth : depth false ['\\', c] = 0 := by simp [depth, hnext, braceStep]
  constructor
  · rw [bareAmpersandFrom_cons, bareAmpersandFrom_cons, hnext]
    simp [bareAmpersandFrom]
  · intro p hp
    rcases List.prefix_cons_iff.mp hp with rfl | ⟨q, rfl, hq⟩
    · rfl
    · rcases List.prefix_cons_iff.mp hq with rfl | ⟨rest, rfl, hrest⟩
      · rfl
      · rw [List.prefix_nil.mp hrest, hdepth]
  · exact hdepth
  · simp [pending, escapesNext]

theorem reads_escapeChar (c : Char) : Reads (escapeChar c) 0 false := by
  rcases escapeChar_cases c with ⟨name, hne, hname, hc⟩ | ⟨-, hc⟩ | ⟨hspecial, hc⟩ <;> rw [hc]
  · have hplain : name.all isPlain = true :=
      List.all_eq_true.mpr fun d hd => isPlain_of (by decide) (List.all_eq_true.mp hname d hd)
    have hcommand : Reads ('\\' :: name) 0 false := .name ⟨rfl, hne, hplain⟩
    have hnil : Reads [] 0 false := .plain (by simp)
    exact hcommand.append hnil.group
  · exact .escaped c
  · exact .plain (by simp_all [specials, isPlain])

/-- No text leaves a brace open or a backslash pending once it is escaped. -/
theorem reads_escape (s : String) : Reads (escape s).toList 0 false := by
  rw [escape, String.toList_ofList]
  induction s.toList with
  | nil => exact .plain (by simp)
  | cons c cs ih => simpa using (reads_escapeChar c).append ih

theorem closed_escape (s : String) : Closed (escape s) := (reads_escape s).closed_iff.mpr rfl

end LatexTable.Text
