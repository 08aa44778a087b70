import LatexTable.Document.Format
import LatexTable.Proofs.Text.Pieces
import Mathlib.Data.List.Forall2
/-!
Which format a path names. The name of a file is the last name on its path, and nothing but slashes
and single points may follow it. The format is told by the word behind the last point of that name,
in any letter case, when something stands before the point.
-/
namespace LatexTable
open Text

namespace DocumentFormat

/-- Slashes, and single points between them, which lead nowhere else. -/
inductive Trailing : List Char → Prop
  | nil : Trailing []
  | slash {cs} : Trailing cs → Trailing ('/' :: cs)
  | point {cs} : Trailing cs → Trailing ('/' :: '.' :: cs)

/-- The last name on a path. -/
def NamesFile (path name : List Char) : Prop :=
  ∃ front tail, path = front ++ name ++ tail ∧ (front = [] ∨ ∃ before, front = before ++ ['/']) ∧
    (name ≠ [] ∧ name ≠ ['.'] ∧ '/' ∉ name) ∧ Trailing tail

/-- The letters of a word, each of them small or large. -/
def AnyCase (word cs : List Char) : Prop :=
  List.Forall₂ (fun w c => c = w ∨ c = w.toUpper) word cs

/-- The words that stand for a format behind the last point of a file name. -/
def endings : DocumentFormat → List String
  | .toml => ["toml"]
  | .json => ["json"]
  | .yaml => ["yaml", "yml"]

/-- The file name ends in a point and a word of the format, and does not begin with that point. -/
def NamesFormat (path : String) (format : DocumentFormat) : Prop :=
  ∃ stem ending, NamesFile path.toList (stem ++ '.' :: ending) ∧ (stem ≠ [] ∧ '.' ∉ ending) ∧
    ∃ word ∈ format.endings, AnyCase word.toList ending

variable {path name stem ending cs tail word : List Char} {format : DocumentFormat} {c w : Char}

section FileNames

/-- The last element that satisfies `p` stands before elements that do not. -/
theorem getLast?_filter_eq_some_iff {α : Type} {p : α → Bool} {l : List α} {a : α} :
    (l.filter p).getLast? = some a ↔
      p a = true ∧ ∃ before after, l = before ++ a :: after ∧ ∀ b ∈ after, p b = false := by
  rw [List.getLast?_filter, List.find?_eq_some_iff_append]
  refine and_congr_right fun _ => ⟨?_, ?_⟩
  · rintro ⟨after, before, hl, hafter⟩
    refine ⟨before.reverse, after.reverse, ?_, fun b hb => ?_⟩
    · rw [← l.reverse_reverse, hl]
      simp
    · simpa using hafter b (List.mem_reverse.mp hb)
  · rintro ⟨before, after, rfl, hafter⟩
    refine ⟨after.reverse, before.reverse, by simp, fun b hb => ?_⟩
    simp [hafter b (by simpa using hb)]

/-- Pieces behind a name that are no names. -/
theorem trailing_flatMap {pieces : List (List Char)} (h : ∀ p ∈ pieces, p = [] ∨ p = ['.']) :
    Trailing (pieces.flatMap ('/' :: ·)) := by
  induction pieces with
  | nil => exact .nil
  | cons p pieces ih =>
    rw [List.forall_mem_cons] at h
    obtain ⟨rfl | rfl, hrest⟩ := h
    · exact .slash (ih hrest)
    · exact .point (ih hrest)

theorem Trailing.splitAt_append (h : Trailing tail) (hname : '/' ∉ name) :
    ∃ pieces, splitAt '/' (name ++ tail) = name :: pieces ∧ ∀ p ∈ pieces, p = [] ∨ p = ['.'] := by
  induction h generalizing name with
  | nil => exact ⟨[], by rw [List.append_nil, splitAt_of_notMem hname], List.forall_mem_nil _⟩
  | slash _ ih =>
    obtain ⟨pieces, hsplit, hpieces⟩ := ih (show '/' ∉ ([] : List Char) from List.not_mem_nil)
    rw [List.nil_append] at hsplit
    rw [splitAt_append_cons hname, hsplit]
    exact ⟨_, rfl, List.forall_mem_cons.mpr ⟨.inl rfl, hpieces⟩⟩
  | point _ ih =>
    obtain ⟨pieces, hsplit, hpieces⟩ := ih (show '/' ∉ ['.'] by decide)
    rw [List.singleton_append] at hsplit
    rw [splitAt_append_cons hname, hsplit]
    exact ⟨_, rfl, List.forall_mem_cons.mpr ⟨.inr rfl, hpieces⟩⟩

theorem getLast?_names_eq_some_iff :
    ((splitAt '/' path).filter fun part => !part.isEmpty && part ≠ ['.']).getLast? = some name ↔
      NamesFile path name := by
  simp only [getLast?_filter_eq_some_iff, Bool.and_eq_true, Bool.not_eq_true',
    List.isEmpty_eq_false_iff, decide_eq_true_eq]
  constructor
  · rintro ⟨hname, before, after, hsplit, hafter⟩
    have hslash : '/' ∉ name :=
      notMem_of_mem_splitAt (hsplit ▸ List.mem_append_right _ List.mem_cons_self)
    have htail : Trailing (after.flatMap ('/' :: ·)) := trailing_flatMap fun p hp => by
      simpa only [Bool.and_eq_false_iff, Bool.not_eq_false', List.isEmpty_iff,
        decide_eq_false_iff_not, not_not] using hafter p hp
    cases before with
    | nil =>
      exact ⟨[], _, eq_joined_of_splitAt hsplit, .inl rfl, ⟨hname.1, hname.2, hslash⟩, htail⟩
    | cons first rest =>
      refine ⟨joined '/' first rest ++ ['/'], _, ?_, .inr ⟨_, rfl⟩, ⟨hname.1, hname.2, hslash⟩,
        htail⟩
      rw [eq_joined_of_splitAt hsplit]
      simp [joined]
  · rintro ⟨front, tail, rfl, hfront, ⟨hne, hpoint, hslash⟩, htail⟩
    obtain ⟨pieces, hsplit, hpieces⟩ := htail.splitAt_append hslash
    refine ⟨⟨hne, hpoint⟩, ?_⟩
    have hafter : ∀ p ∈ pieces, (!p.isEmpty && decide (p ≠ ['.'])) = false := by
      intro p hp
      rcases hpieces p hp with rfl | rfl <;> rfl
    obtain rfl | ⟨before, rfl⟩ := hfront
    · exact ⟨[], pieces, hsplit, hafter⟩
    · refine ⟨splitAt '/' before, pieces, ?_, hafter⟩
      rw [← hsplit, ← splitAt_append_sep]
      simp

end FileNames

section Extensions

/-- The last occurrence of a character. -/
theorem exists_eq_append_cons (h : c ∈ cs) : ∃ a b, cs = a ++ c :: b ∧ c ∉ b := by
  obtain ⟨b, a, hcs, hb⟩ := List.eq_append_cons_of_mem (List.mem_reverse.mpr h)
  refine ⟨a.reverse, b.reverse, ?_, by simpa using hb⟩
  rw [← cs.reverse_reverse, hcs]
  simp

theorem extension?_append (h : '.' ∉ ending) : extension? (stem ++ '.' :: ending) =
    if stem ++ '.' :: ending = ['.', '.'] ∨ stem = [] then none else some ending := by
  have hpieces : splitAt '.' (stem ++ '.' :: ending) = splitAt '.' stem ++ [ending] := by
    rw [splitAt_append_sep, splitAt_of_notMem h]
  have hstem : splitAt '.' stem = [[]] ↔ stem = [] := by
    constructor
    · intro hsplit
      simpa [joined] using eq_joined_of_splitAt hsplit
    · rintro rfl
      rfl
  have hne : (splitAt '.' stem).isEmpty = false := by
    simpa using splitAt_ne_nil '.' stem
  simp [extension?, hpieces, hstem, hne]

theorem extension?_eq_some_iff : extension? name = some ending ↔
    name ≠ ['.', '.'] ∧ ∃ stem, name = stem ++ '.' :: ending ∧ stem ≠ [] ∧ '.' ∉ ending := by
  constructor
  · intro h
    by_cases hpoint : '.' ∈ name
    · obtain ⟨stem, last, rfl, hlast⟩ := exists_eq_append_cons hpoint
      rw [extension?_append hlast, Option.ite_none_left_eq_some, not_or] at h
      obtain ⟨⟨hdots, hstem⟩, hending⟩ := h
      obtain rfl := Option.some.inj hending
      exact ⟨hdots, stem, rfl, hstem, hlast⟩
    · simp [extension?, splitAt_of_notMem hpoint] at h
  · rintro ⟨hdots, stem, rfl, hstem, hending⟩
    rw [extension?_append hending, if_neg (not_or.mpr ⟨hdots, hstem⟩)]

end Extensions

section Words

theorem length_pos_of_mem_endings {word : String} (h : word ∈ format.endings) :
    0 < word.toList.length := by
  have hall : ∀ word ∈ format.endings, 0 < word.toList.length := by cases format <;> decide
  exact hall word h

theorem ofExtension?_eq_some_iff {s : String} :
    ofExtension? s = some format ↔ s ∈ format.endings := by
  unfold ofExtension?
  split <;> cases format <;> simp_all [endings]

/-- The letters of the words. The one letter with another large form outside ASCII, the `k` of the
Kelvin sign, is not among them. -/
def letters : List Char := ['a', 'j', 'l', 'm', 'n', 'o', 's', 't', 'y']

theorem lower_eq_iff (hw : w ∈ letters) : lower c = w ↔ c = w ∨ c = w.toUpper := by
  by_cases hc : c.toNat < 128
  · have hall := forall_ascii (P := fun c => (letters.all fun w =>
      decide (lower c = w ↔ c = w ∨ c = w.toUpper)) = true) (by decide) hc
    exact of_decide_eq_true (List.all_eq_true.mp hall w hw)
  · have hascii : (letters.all fun w =>
        decide (w.toNat < 128 ∧ w.toUpper.toNat < 128 ∧ w ≠ 'k')) = true := by decide
    obtain ⟨hsmall, hlarge, hk⟩ := of_decide_eq_true (List.all_eq_true.mp hascii w hw)
    have hc' : c ≠ w ∧ c ≠ w.toUpper := by
      constructor
      · rintro rfl
        exact hc hsmall
      · rintro rfl
        exact hc hlarge
    have hlower : lower c ≠ w := by
      unfold lower
      split
      · exact hk.symm
      · have hsame : c.toLower = c := dif_neg fun h => hc (Nat.lt_of_le_of_lt h.2 (by decide))
        rw [hsame]
        exact hc'.1
    simp [hlower, hc']

theorem map_lower_eq_iff (hword : ∀ w ∈ word, w ∈ letters) :
    cs.map lower = word ↔ AnyCase word cs := by
  induction word generalizing cs with
  | nil => simp [AnyCase]
  | cons w word ih =>
    rw [List.forall_mem_cons] at hword
    cases cs with
    | nil => simp [AnyCase]
    | cons c cs =>
      rw [List.map_cons, List.cons.injEq, lower_eq_iff hword.1, ih hword.2]
      simp only [AnyCase, List.forall₂_cons]

theorem ofExtension?_lower_eq_some_iff :
    ofExtension? (String.ofList (ending.map lower)) = some format ↔
      ∃ word ∈ format.endings, AnyCase word.toList ending := by
  have hall : (format.endings.all fun word => word.toList.all letters.contains) = true := by
    cases format <;> decide
  have hletters : ∀ word ∈ format.endings, ∀ w ∈ word.toList, w ∈ letters := by
    simpa only [List.all_eq_true, List.contains_iff_mem] using hall
  rw [ofExtension?_eq_some_iff]
  constructor
  · intro h
    exact ⟨_, h, (map_lower_eq_iff (hletters _ h)).mp (String.toList_ofList).symm⟩
  · rintro ⟨word, hword, hcase⟩
    rwa [(map_lower_eq_iff (hletters word hword)).mpr hcase, String.ofList_toList]

end Words

/-- The format of a path is the one that it names. -/
theorem ofPath?_eq_some_iff {path : String} :
    ofPath? path = some format ↔ NamesFormat path format := by
  simp only [ofPath?, Option.bind_eq_bind, Option.bind_eq_some_iff, getLast?_names_eq_some_iff,
    extension?_eq_some_iff, ofExtension?_lower_eq_some_iff]
  constructor
  · rintro ⟨_, hname, ending, ⟨-, stem, rfl, hstem, hpoint⟩, hword⟩
    exact ⟨stem, ending, hname, ⟨hstem, hpoint⟩, hword⟩
  · rintro ⟨stem, ending, hname, ⟨hstem, hpoint⟩, hword⟩
    refine ⟨_, hname, ending, ⟨?_, stem, rfl, hstem, hpoint⟩, hword⟩
    intro hdots
    obtain ⟨word, hword, hcase⟩ := hword
    have hlength := congrArg List.length hdots
    have hbefore := List.length_pos_of_ne_nil hstem
    have hbehind := length_pos_of_mem_endings hword
    simp only [List.length_append, List.length_cons, List.length_nil] at hlength
    rw [hcase.length_eq] at hbehind
    omega

theorem ofPath?_eq_none_iff {path : String} :
    ofPath? path = none ↔ ¬∃ format, NamesFormat path format := by
  rw [← Option.not_isSome_iff_eq_none, Option.isSome_iff_exists]
  simp only [ofPath?_eq_some_iff]

-- the name of a hidden file is not an ending
example : ¬∃ format, NamesFormat "tables/.toml" format := ofPath?_eq_none_iff.mp (by decide)

end DocumentFormat
end LatexTable
