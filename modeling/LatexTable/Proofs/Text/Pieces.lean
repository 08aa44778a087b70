import LatexTable.Latex.Source
import LatexTable.Text.Letters
import Mathlib.Data.List.Basic
import Std.Data.String.ToNat
/-!
Texts put together from pieces can be taken apart again: lines, pieces around a separator, and
numbers, as long as a piece does not hold the character at which it is cut.
-/
namespace LatexTable.Text

variable {a a' b b' cs rest rest' : List Char} {c : Char}

/-- The text before the first occurrence of a character, and the text behind it. -/
def cut (c : Char) (cs : List Char) : List Char × List Char :=
  (cs.takeWhile (· ≠ c), (cs.dropWhile (· ≠ c)).tail)

theorem cut_append (h : c ∉ a) : cut c (a ++ c :: b) = (a, b) := by
  have hall : ∀ d ∈ a, (decide (d ≠ c)) = true := by
    intro d hd
    exact decide_eq_true (ne_of_mem_of_not_mem hd h)
  rw [cut, List.takeWhile_append_of_pos hall, List.dropWhile_append_of_pos hall]
  simp

theorem append_cons_inj (ha : c ∉ a) (ha' : c ∉ a') (h : a ++ c :: b = a' ++ c :: b') :
    a = a' ∧ b = b' := by
  have hcut := congrArg (cut c) h
  rw [cut_append ha, cut_append ha'] at hcut
  exact Prod.mk.inj hcut

/-- What stands behind a beginning, if the text begins so. -/
def behind? : List Char → List Char → Option (List Char)
  | [], cs => some cs
  | d :: ds, c :: cs => if d = c then behind? ds cs else none
  | _ :: _, [] => none

theorem behind?_append (h : List Char) (cs : List Char) : behind? h (h ++ cs) = some cs := by
  induction h with
  | nil => rfl
  | cons d ds ih => simp [behind?, ih]

theorem behind?_eq_none (h : c ∉ cs) (ds : List Char) : behind? (c :: ds) cs = none := by
  cases cs with
  | nil => rfl
  | cons d cs => exact if_neg (ne_of_mem_of_not_mem List.mem_cons_self h).symm

/-- What holds of all ASCII characters is checked on their numbers. -/
theorem forall_ascii {P : Char → Prop} (h : ∀ n < 128, P (Char.ofNat n)) (hc : c.toNat < 128) :
    P c := by
  have hcode := h c.toNat hc
  rwa [Char.ofNat_toNat] at hcode

/-- A text with characters of one class only holds none of the characters outside it. -/
theorem notMem_of_class {p : Char → Bool} {marks : List Char} (hcs : ∀ c ∈ cs, p c = true)
    (hmarks : (marks.all fun mark => !p mark) = true) : ∀ mark ∈ marks, mark ∉ cs := by
  intro mark hmark hmem
  have hout := List.all_eq_true.mp hmarks mark hmark
  simp [hcs mark hmem] at hout

section Separators

variable {sep : Char} {piece : List Char} {pieces : List (List Char)}

/-- Pieces with a separator before each but the first. -/
def joined (sep : Char) (piece : List Char) (pieces : List (List Char)) : List Char :=
  piece ++ pieces.flatMap (sep :: ·)

theorem splitAt_of_notMem (h : sep ∉ cs) : splitAt sep cs = [cs] := by
  induction cs with
  | nil => rfl
  | cons c cs ih =>
    rw [List.mem_cons, not_or] at h
    rw [splitAt, if_neg (Ne.symm h.1), ih h.2]

theorem splitAt_ne_nil (sep : Char) (cs : List Char) : splitAt sep cs ≠ [] := by
  cases cs with
  | nil => exact List.cons_ne_nil _ _
  | cons c cs =>
    rw [splitAt]
    split
    · exact List.cons_ne_nil _ _
    · split <;> exact List.cons_ne_nil _ _

/-- The pieces before a separator, then those behind it. -/
theorem splitAt_append_sep (sep : Char) (a b : List Char) :
    splitAt sep (a ++ sep :: b) = splitAt sep a ++ splitAt sep b := by
  induction a with
  | nil => exact if_pos rfl
  | cons c a ih =>
    obtain ⟨first, rest, hsplit⟩ := List.exists_cons_of_ne_nil (splitAt_ne_nil sep a)
    rw [List.cons_append, splitAt, splitAt, ih, hsplit]
    split <;> rfl

theorem splitAt_append_cons (h : sep ∉ a) : splitAt sep (a ++ sep :: b) = a :: splitAt sep b := by
  rw [splitAt_append_sep, splitAt_of_notMem h, List.singleton_append]

theorem notMem_of_mem_splitAt (h : piece ∈ splitAt sep cs) : sep ∉ piece := by
  induction cs generalizing piece with
  | nil =>
    rw [List.mem_singleton.mp h]
    exact List.not_mem_nil
  | cons c cs ih =>
    obtain ⟨first, rest, hsplit⟩ := List.exists_cons_of_ne_nil (splitAt_ne_nil sep cs)
    rw [splitAt, hsplit] at h
    rw [hsplit] at ih
    split at h
    next =>
      rcases List.mem_cons.mp h with rfl | hold
      · exact List.not_mem_nil
      · exact ih hold
    next hne =>
      rcases List.mem_cons.mp h with rfl | hold
      · exact List.not_mem_cons_of_ne_of_not_mem (Ne.symm hne) (ih List.mem_cons_self)
      · exact ih (List.mem_cons_of_mem _ hold)

/-- Splitting takes joined pieces apart again. -/
theorem splitAt_joined (h : ∀ p ∈ piece :: pieces, sep ∉ p) :
    splitAt sep (joined sep piece pieces) = piece :: pieces := by
  induction pieces generalizing piece with
  | nil => simpa [joined] using splitAt_of_notMem (h piece List.mem_cons_self)
  | cons next pieces ih =>
    rw [List.forall_mem_cons] at h
    have hjoined : joined sep piece (next :: pieces) = piece ++ sep :: joined sep next pieces := rfl
    rw [hjoined, splitAt_append_cons h.1, ih h.2]

theorem eq_joined_of_splitAt (h : splitAt sep cs = piece :: pieces) :
    cs = joined sep piece pieces := by
  induction cs generalizing piece pieces with
  | nil =>
    cases h
    rfl
  | cons c cs ih =>
    obtain ⟨first, rest, hsplit⟩ := List.exists_cons_of_ne_nil (splitAt_ne_nil sep cs)
    rw [splitAt, hsplit] at h
    rw [ih hsplit]
    split at h
    next hsep =>
      cases h
      rw [hsep]
      rfl
    next =>
      cases h
      rfl

end Separators

theorem map_toList_injective : Function.Injective (List.map String.toList) :=
  List.map_injective_iff.mpr fun _ _ => String.toList_injective

/-- Lines, each with its line end. -/
def lines (ls : List (List Char)) : List Char := ls.flatMap (· ++ ['\n'])

@[simp] theorem lines_nil : lines [] = [] := rfl

@[simp] theorem lines_cons (l : List Char) (ls : List (List Char)) :
    lines (l :: ls) = l ++ '\n' :: lines ls := by simp [lines]

@[simp] theorem lines_append (ls ls' : List (List Char)) :
    lines (ls ++ ls') = lines ls ++ lines ls' := List.flatMap_append

theorem toList_unlines (ls : List String) :
    (Latex.unlines ls).toList = lines (ls.map String.toList) := by
  simp [Latex.unlines, lines, String.toList_join, List.flatMap_map]

/-- Lines that satisfy `P` end before a rest that has no such line at its head. -/
theorem lines_append_inj {P : List Char → Prop} (hrest : ∀ l tail, P l → rest ≠ l ++ '\n' :: tail)
    (hrest' : ∀ l tail, P l → rest' ≠ l ++ '\n' :: tail) :
    ∀ {ls ls' : List (List Char)}, (∀ l ∈ ls, P l ∧ '\n' ∉ l) → (∀ l ∈ ls', P l ∧ '\n' ∉ l) →
      lines ls ++ rest = lines ls' ++ rest' → ls = ls' ∧ rest = rest'
  | [], [], _, _, h => ⟨rfl, h⟩
  | [], l :: ls', _, hls', h => by
    rw [lines_cons, List.append_assoc] at h
    exact absurd h (hrest l _ (hls' l List.mem_cons_self).1)
  | l :: ls, [], hls, _, h => by
    rw [lines_cons, List.append_assoc] at h
    exact absurd h.symm (hrest' l _ (hls l List.mem_cons_self).1)
  | l :: ls, l' :: ls', hls, hls', h => by
    simp only [lines_cons, List.append_assoc, List.cons_append] at h
    obtain ⟨rfl, htail⟩ :=
      append_cons_inj (hls l List.mem_cons_self).2 (hls' l' List.mem_cons_self).2 h
    obtain ⟨rfl, hr⟩ := lines_append_inj hrest hrest'
      (fun m hm => hls m (List.mem_cons_of_mem _ hm))
      (fun m hm => hls' m (List.mem_cons_of_mem _ hm)) htail
    exact ⟨rfl, hr⟩

theorem lines_inj {ls ls' : List (List Char)} (hls : ∀ l ∈ ls, '\n' ∉ l)
    (hls' : ∀ l ∈ ls', '\n' ∉ l) (h : lines ls = lines ls') : ls = ls' := by
  have hnil (l tail : List Char) (_ : True) : [] ≠ l ++ '\n' :: tail := by simp
  refine (lines_append_inj hnil hnil ?_ ?_ (congrArg (· ++ []) h)).1
  · exact fun l hl => ⟨trivial, hls l hl⟩
  · exact fun l hl => ⟨trivial, hls' l hl⟩

/-- Pieces around a separator can be told apart at a character of it that no piece holds. -/
theorem intercalate_inj (hc : c ∉ a) :
    ∀ {ps ps' : List (List Char)}, ps ≠ [] → ps' ≠ [] → (∀ p ∈ ps, c ∉ p) → (∀ p ∈ ps', c ∉ p) →
      (a ++ c :: b).intercalate ps = (a ++ c :: b).intercalate ps' → ps = ps'
  | [], _, h, _, _, _, _ => absurd rfl h
  | _, [], _, h, _, _, _ => absurd rfl h
  | [p], [p'], _, _, _, _, h => by simpa using h
  | [p], p' :: q' :: ps', _, _, hp, _, h => by
    simp only [List.intercalate_singleton, List.intercalate_cons_cons] at h
    have hmem : c ∈ p := by
      rw [h]
      simp
    exact absurd hmem (hp p List.mem_cons_self)
  | p :: q :: ps, [p'], _, _, _, hp', h => by
    simp only [List.intercalate_singleton, List.intercalate_cons_cons] at h
    have hmem : c ∈ p' := by
      rw [← h]
      simp
    exact absurd hmem (hp' p' List.mem_cons_self)
  | p :: q :: ps, p' :: q' :: ps', _, _, hp, hp', h => by
    have hfree (l : List Char) (hl : c ∉ l) : c ∉ l ++ a := by simp [hl, hc]
    simp only [List.intercalate_cons_cons, List.append_assoc, List.cons_append] at h
    rw [← List.append_assoc p, ← List.append_assoc p'] at h
    obtain ⟨hhead, htail⟩ := append_cons_inj (hfree p (hp p List.mem_cons_self))
      (hfree p' (hp' p' List.mem_cons_self)) h
    obtain rfl := List.append_cancel_right hhead
    have hrest := intercalate_inj hc (List.cons_ne_nil q ps) (List.cons_ne_nil q' ps')
      (fun r hr => hp r (List.mem_cons_of_mem _ hr))
      (fun r hr => hp' r (List.mem_cons_of_mem _ hr)) (List.append_cancel_left htail)
    rw [hrest]

theorem intercalate_cons (a p : List Char) (ps : List (List Char)) :
    a.intercalate (p :: ps) = p ++ ps.flatMap (a ++ ·) := by
  induction ps generalizing p with
  | nil => simp
  | cons q ps ih => simp [List.intercalate_cons_cons, ih]

theorem notMem_intercalate {ps : List (List Char)} (ha : c ∉ a) (hps : ∀ p ∈ ps, c ∉ p) :
    c ∉ a.intercalate ps := by
  induction ps with
  | nil => simp
  | cons p ps ih =>
    have hrest := ih fun q hq => hps q (List.mem_cons_of_mem _ hq)
    have hp := hps p List.mem_cons_self
    cases ps with
    | nil => simpa using hp
    | cons q ps => simp [List.intercalate_cons_cons, hp, ha, hrest]

/-- Pieces that cannot be taken for the end of their sequence can be counted. -/
theorem range_flatMap_inj {f : Nat → List Char} (hf : ∀ i, ∃ d ds, f i = d :: ds ∧ d ≠ c) :
    ∀ {m n : Nat}, (List.range m).flatMap f ++ c :: rest = (List.range n).flatMap f ++ c :: rest' →
      m = n ∧ rest = rest' := by
  have hlt {k : Nat} {m : Nat} {rest rest' : List Char} : (List.range m).flatMap f ++ c :: rest ≠
      (List.range (m + (k + 1))).flatMap f ++ c :: rest' := by
    intro h
    rw [List.range_add, List.flatMap_append, List.append_assoc] at h
    have hcons := List.append_cancel_left h
    obtain ⟨d, ds, hd, hne⟩ := hf m
    rw [List.range_succ_eq_map, List.map_cons, List.flatMap_cons, Nat.add_zero, hd] at hcons
    exact hne (List.cons.inj hcons).1.symm
  intro m n h
  rcases Nat.lt_trichotomy m n with hmn | rfl | hmn
  · obtain ⟨k, rfl⟩ := Nat.exists_eq_add_of_lt hmn
    exact absurd h (by simpa only [Nat.add_assoc] using hlt)
  · exact ⟨rfl, (List.cons.inj (List.append_cancel_left h)).2⟩
  · obtain ⟨k, rfl⟩ := Nat.exists_eq_add_of_lt hmn
    exact absurd h.symm (by simpa only [Nat.add_assoc] using hlt)

/-- The decimal digits of a number. -/
def digits (n : Nat) : List Char := (toString n).toList

theorem digits_injective {m n : Nat} (h : digits m = digits n) : m = n :=
  Nat.repr_injective (String.toList_injective h)

theorem isDigit_of_mem_digits {n : Nat} (h : c ∈ digits n) : c.isDigit = true :=
  Nat.isDigit_of_mem_toDigits (b := 10) (n := n) (by decide) (Nat.le_refl 10)
    (by simpa [digits, Nat.repr] using h)

theorem notMem_digits (n : Nat) (hc : c.isDigit = false) : c ∉ digits n := by
  intro hmem
  rw [isDigit_of_mem_digits hmem] at hc
  contradiction

end LatexTable.Text
