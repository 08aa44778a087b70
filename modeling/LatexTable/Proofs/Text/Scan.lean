import LatexTable.Proofs.Text.Blank
import LatexTable.Text.Escape
import Mathlib.Algebra.Order.Ring.Int
/-!
Texts as the two scanners read them: a backslash takes the next character out of the grammar. What
a text leaves behind is the number of its open braces and whether a backslash is still pending, so
texts can be put together, and put into braces.
-/
namespace LatexTable.Text

/-- Whether the next character is escaped, once a character has been read. -/
def escapesNext (escaped : Bool) (c : Char) : Bool := c = '\\' && !escaped

/-- Whether a backslash is pending behind a text. -/
def pending : Bool → List Char → Bool
  | escaped, [] => escaped
  | escaped, c :: cs => pending (escapesNext escaped c) cs

/-- What a character adds to the number of open braces. -/
def braceStep (escaped : Bool) (c : Char) : Int :=
  if escaped then 0 else if c = '\x7b' then 1 else if c = '\x7d' then -1 else 0

/-- The braces that a text opens, less those that it closes. -/
def depth : Bool → List Char → Int
  | _, [] => 0
  | escaped, c :: cs => braceStep escaped c + depth (escapesNext escaped c) cs

/-- No `&` is bare, no brace is closed before it is opened, and none stays open. -/
structure Closed (s : String) : Prop where
  no_ampersand : hasBareAmpersand s = false
  nonneg : ∀ p, p <+: s.toList → 0 ≤ depth false p
  settled : depth false s.toList = 0

/-- The text has no bare `&`, closes only what it opens, and ends with so many open braces. -/
structure Reads (cs : List Char) (openBraces : Int) (escaped : Bool) : Prop where
  no_ampersand : bareAmpersandFrom false cs = false
  nonneg : ∀ p, p <+: cs → 0 ≤ depth false p
  settled : depth false cs = openBraces
  leaves : pending false cs = escaped

variable {a b cs command : List Char} {c : Char} {s : String} {e e' : Bool} {m n : Int}

theorem pending_append : pending e (a ++ b) = pending (pending e a) b := by
  induction a generalizing e with
  | nil => rfl
  | cons c a ih => exact ih

theorem depth_append : depth e (a ++ b) = depth e a + depth (pending e a) b := by
  induction a generalizing e with
  | nil => simp [depth, pending]
  | cons c a ih => simp [depth, pending, ih, add_assoc]

theorem bareAmpersandFrom_cons : bareAmpersandFrom e (c :: cs) =
    ((c = '&' && !e) || bareAmpersandFrom (escapesNext e c) cs) := by
  rw [bareAmpersandFrom]
  by_cases hback : c = '\\'
  · simp [hback, escapesNext]
  · by_cases hamp : (c = '&' && !e) = true <;> simp [hback, hamp, escapesNext]

theorem bareAmpersandFrom_append : bareAmpersandFrom e (a ++ b) =
    (bareAmpersandFrom e a || bareAmpersandFrom (pending e a) b) := by
  induction a generalizing e with
  | nil => rfl
  | cons c a ih => simp only [List.cons_append, bareAmpersandFrom_cons, ih, pending, Bool.or_assoc]

/-- The characters that no scanner looks for. -/
def isPlain (c : Char) : Bool := c ∉ ['\\', '\x7b', '\x7d', '&']

theorem escapesNext_plain (h : isPlain c = true) : escapesNext e c = false := by
  simp_all [isPlain, escapesNext]

theorem braceStep_plain (h : isPlain c = true) : braceStep e c = 0 := by
  simp_all [isPlain, braceStep]

theorem isPlain_of {p : Char → Bool} (hp : ['\\', '\x7b', '\x7d', '&'].any p = false)
    (h : p c = true) : isPlain c = true := by
  rw [isPlain, decide_eq_true_iff]
  exact fun hmem => List.any_eq_false.mp hp c hmem h

theorem depth_plain (h : ∀ c ∈ cs, isPlain c = true) : depth e cs = 0 := by
  induction cs generalizing e with
  | nil => rfl
  | cons c cs ih =>
    rw [List.forall_mem_cons] at h
    rw [depth, braceStep_plain h.1, ih h.2, add_zero]

theorem pending_plain (h : ∀ c ∈ cs, isPlain c = true) : pending false cs = false := by
  induction cs with
  | nil => rfl
  | cons c cs ih =>
    rw [List.forall_mem_cons] at h
    rw [pending, escapesNext_plain h.1, ih h.2]

theorem bareAmpersandFrom_plain (h : ∀ c ∈ cs, isPlain c = true) :
    bareAmpersandFrom e cs = false := by
  induction cs generalizing e with
  | nil => rfl
  | cons c cs ih =>
    rw [List.forall_mem_cons] at h
    have hamp : c ≠ '&' := by
      rintro rfl
      exact absurd h.1 (by decide)
    rw [bareAmpersandFrom_cons, ih h.2]
    simp [hamp]

/-- The prefixes of a text, after its first character. -/
theorem nonneg_cons : (∀ p, p <+: c :: cs → 0 ≤ n + depth e p) ↔
    0 ≤ n ∧ ∀ p, p <+: cs → 0 ≤ n + braceStep e c + depth (escapesNext e c) p := by
  constructor
  · intro h
    refine ⟨by simpa [depth] using h [] List.nil_prefix, fun p hp => ?_⟩
    simpa [depth, add_assoc] using h (c :: p) ((List.prefix_cons_inj c).mpr hp)
  · rintro ⟨hn, h⟩ p hp
    rcases List.prefix_cons_iff.mp hp with rfl | ⟨q, rfl, hq⟩
    · simpa [depth] using hn
    · simpa [depth, add_assoc] using h q hq

/-- The scanner of braces is content when every prefix closes only what it opens, and nothing stays
open. -/
theorem braceFaultsFrom_eq_nil {n : Nat} : braceFaultsFrom n e cs = [] ↔
    (∀ p, p <+: cs → 0 ≤ n + depth e p) ∧ n + depth e cs = 0 := by
  induction cs generalizing n e with
  | nil =>
    rw [braceFaultsFrom]
    split <;> simp [depth, *]
  | cons c cs ih =>
    rw [nonneg_cons, depth, ← add_assoc, braceFaultsFrom.eq_def]
    dsimp only
    split
    next hback =>
      subst hback
      simp [ih, braceStep, escapesNext]
    next hback =>
      split
      next hopen =>
        simp only [Bool.and_eq_true, decide_eq_true_eq, Bool.not_eq_true'] at hopen
        obtain ⟨rfl, rfl⟩ := hopen
        simp [ih, braceStep, escapesNext, add_nonneg]
      next hopen =>
        split
        next hclose =>
          simp only [Bool.and_eq_true, decide_eq_true_eq, Bool.not_eq_true'] at hclose
          obtain ⟨rfl, rfl⟩ := hclose
          cases n with
          | zero =>
            simp only [reduceCtorEq, false_iff, not_and]
            rintro ⟨-, h⟩
            have hfirst := h [] List.nil_prefix
            simp [depth, braceStep] at hfirst
          | succ n => simp [ih, braceStep, escapesNext, add_nonneg]
        next hclose =>
          have hstep : braceStep e c = 0 := by
            cases e <;> simp_all [braceStep]
          simp [ih, hstep, escapesNext, hback]

theorem closed_iff : Closed s ↔ hasBareAmpersand s = false ∧ braceFaults s = [] := by
  rw [braceFaults, braceFaultsFrom_eq_nil]
  simp only [Nat.cast_zero, zero_add]
  exact ⟨fun ⟨h, h', h''⟩ => ⟨h, h', h''⟩, fun ⟨h, h', h''⟩ => ⟨h, h', h''⟩⟩

namespace Reads

theorem of_closed (h : Closed s) : Reads s.toList 0 (pending false s.toList) :=
  ⟨h.no_ampersand, h.nonneg, h.settled, rfl⟩

theorem closed_iff (h : Reads s.toList n e) : Closed s ↔ n = 0 :=
  ⟨fun hclosed => h.settled.symm.trans hclosed.settled,
    fun hn => ⟨h.no_ampersand, h.nonneg, h.settled.trans hn⟩⟩

theorem openBraces_nonneg (h : Reads cs n e) : 0 ≤ n :=
  h.settled ▸ h.nonneg cs List.prefix_rfl

theorem plain (h : ∀ c ∈ cs, isPlain c = true) : Reads cs 0 false where
  no_ampersand := bareAmpersandFrom_plain h
  nonneg := fun _ hp => (depth_plain fun c hc => h c (hp.subset hc)).ge
  settled := depth_plain h
  leaves := pending_plain h

/-- A text may go on where nothing is pending. -/
theorem append (ha : Reads a m false) (hb : Reads b n e) : Reads (a ++ b) (m + n) e where
  no_ampersand := by rw [bareAmpersandFrom_append, ha.no_ampersand, ha.leaves, hb.no_ampersand]; rfl
  nonneg := by
    intro p hp
    rcases List.prefix_or_prefix_of_prefix hp (List.prefix_append a b) with hp | ⟨q, rfl⟩
    · exact ha.nonneg p hp
    · have hq := hb.nonneg q ((List.prefix_append_right_inj a).mp hp)
      rw [depth_append, ha.settled, ha.leaves]
      exact add_nonneg ha.openBraces_nonneg hq
  settled := by rw [depth_append, ha.settled, ha.leaves, hb.settled]
  leaves := by rw [pending_append, ha.leaves, hb.leaves]

/-- In braces a text keeps its open braces; a pending backslash takes away the closing one. -/
theorem group (h : Reads cs n e) :
    Reads ('\x7b' :: (cs ++ ['\x7d'])) (if e then n + 1 else n) false := by
  have hn := h.openBraces_nonneg
  have hlast : depth e ['\x7d'] = if e then 0 else -1 := by cases e <;> rfl
  have hamp : bareAmpersandFrom e ['\x7d'] = false := by cases e <;> rfl
  have hescapes : escapesNext e '\x7d' = false := by cases e <;> rfl
  have hend : depth false (cs ++ ['\x7d']) = n + if e then 0 else -1 := by
    rw [depth_append, h.settled, h.leaves, hlast]
  constructor
  · rw [bareAmpersandFrom_cons, show escapesNext false '\x7b' = false from rfl,
      bareAmpersandFrom_append, h.no_ampersand, h.leaves, hamp]
    rfl
  · intro p hp
    rcases List.prefix_cons_iff.mp hp with rfl | ⟨q, rfl, hq⟩
    · rfl
    · have hopened : depth false ('\x7b' :: q) = 1 + depth false q := rfl
      rcases List.prefix_concat_iff.mp hq with rfl | hq
      · rw [hopened, hend]
        split <;> omega
      · have := h.nonneg q hq
        omega
  · rw [show depth false ('\x7b' :: (cs ++ ['\x7d'])) = 1 + depth false (cs ++ ['\x7d']) from rfl,
      hend]
    split <;> omega
  · rw [pending, show escapesNext false '\x7b' = false from rfl, pending_append, h.leaves, pending,
      hescapes]
    rfl

/-- The name of a command, with its backslash. -/
theorem name (h : cs.head? = some '\\' ∧ cs.tail ≠ [] ∧ cs.tail.all isPlain = true) :
    Reads cs 0 false := by
  obtain ⟨hback, hne, hplain⟩ := h
  rw [List.all_eq_true] at hplain
  obtain ⟨rest, rfl⟩ := List.head?_eq_some_iff.mp hback
  rw [List.tail_cons] at hne hplain
  constructor
  · rw [bareAmpersandFrom_cons, bareAmpersandFrom_plain hplain]
    rfl
  · intro p hp
    rcases List.prefix_cons_iff.mp hp with rfl | ⟨q, rfl, hq⟩
    · rfl
    · rw [depth, depth_plain fun c hc => hplain c (hq.subset hc)]
      decide
  · rw [depth, depth_plain hplain]
    rfl
  · obtain ⟨c, rest, rfl⟩ := List.exists_cons_of_ne_nil hne
    rw [List.forall_mem_cons] at hplain
    rw [pending, pending, escapesNext_plain hplain.1, pending_plain hplain.2]

/-- Blanks around a text hold no brace, though the last one may be escaped. -/
theorem trim (h : Reads cs n e) :
    Reads (trimmed cs) n (pending false (trimmed cs)) := by
  obtain ⟨before, after, hcs, hbefore, hafter⟩ := exists_trimmed cs
  have hread : Reads before 0 false := plain fun c hc => isPlain_of (by decide) (hbefore c hc)
  have hblank : depth (pending false (trimmed cs)) after = 0 :=
    depth_plain fun c hc => isPlain_of (by decide) (hafter c hc)
  have hdepth (p : List Char) : depth false (before ++ p) = depth false p := by
    rw [depth_append, hread.settled, hread.leaves, zero_add]
  have hamp := h.no_ampersand
  have hsettled := h.settled
  rw [hcs, bareAmpersandFrom_append, hread.leaves, bareAmpersandFrom_append, Bool.or_eq_false_iff,
    Bool.or_eq_false_iff] at hamp
  rw [hcs, hdepth, depth_append, hblank, add_zero] at hsettled
  refine ⟨hamp.2.1, fun p hp => ?_, hsettled, rfl⟩
  rw [← hdepth p]
  apply h.nonneg
  rw [hcs]
  exact (List.prefix_append_right_inj before).mpr (hp.trans (List.prefix_append _ after))

end Reads

end LatexTable.Text
