import LatexTable.Proofs.Guarded.Check
import LatexTable.Proofs.Text.BackslashRuns
import LatexTable.Proofs.Text.Escape
/-!
Escaped text is read back. No piece that stands for a special character begins another one, so the
characters come back one by one, whatever the text was. The scanners have nothing to say about
escaped text, and a backslash stands in it where a piece needs one and nowhere else.
-/
namespace LatexTable.Text

/-- The special character whose piece a text begins with. -/
def special? (cs : List Char) : Option Char := specials.find? fun c => escapeChar c <+: cs

/-- Reads escaped text, `rest` characters of the piece at hand being left. -/
def unescapeFrom : Nat → List Char → List Char
  | _, [] => []
  | rest + 1, _ :: cs => unescapeFrom rest cs
  | 0, c :: cs =>
    match special? (c :: cs) with
    | some d => d :: unescapeFrom ((escapeChar d).length - 1) cs
    | none => c :: unescapeFrom 0 cs

/-- The text that an escaped text stands for. -/
def unescape (s : String) : String := String.ofList (unescapeFrom 0 s.toList)

/-- The characters that are copied behind a backslash and are not braces. -/
def marks : List Char := ['&', '%', '$', '#', '_']

/-- Every mark stands behind a backslash that no backslash precedes, and the text does not end in a
backslash. -/
structure Guards (cs : List Char) : Prop where
  mark : ∀ before c after, cs = before ++ c :: after → c ∈ marks →
    ∃ front, before = front ++ ['\\'] ∧ backslashRun front = 0
  ends : backslashRun cs = 0

/-- A cell may hold the text: no scanner reports it, neither `~` nor `^` occurs in it, every mark is
escaped by one backslash with none before it, and no backslash is pending at its end. -/
structure Harmless (s : String) : Prop where
  no_ampersand : hasBareAmpersand s = false
  no_fault : Guarded.braceFaults s = .ok [] ∧ braceFaults s = []
  no_active : '~' ∉ s.toList ∧ '^' ∉ s.toList
  guards : Guards s.toList

variable {a b cs : List Char} {c d : Char} {s : String}

section Reading

/-- The piece of a special character begins with a backslash. -/
theorem head?_escapeChar (h : c ∈ specials) : (escapeChar c).head? = some '\\' := by
  have hall : specials.all (fun c => (escapeChar c).head? = some '\\') = true := by decide
  exact of_decide_eq_true (List.all_eq_true.mp hall c h)

/-- No piece of a special character begins another one. -/
theorem eq_of_prefix_escapeChar (hc : c ∈ specials) (hd : d ∈ specials)
    (h : escapeChar d <+: escapeChar c) : d = c := by
  have hall : specials.all (fun c => specials.all fun d =>
      !(escapeChar d).isPrefixOf (escapeChar c) || d = c) = true := by decide
  have hpair := List.all_eq_true.mp (List.all_eq_true.mp hall c hc) d hd
  simpa [List.isPrefixOf_iff_prefix.mpr h] using hpair

theorem special?_of_special (cs : List Char) (h : c ∈ specials) :
    special? (escapeChar c ++ cs) = some c := by
  have hfound : (special? (escapeChar c ++ cs)).isSome = true :=
    List.find?_isSome.mpr ⟨c, h, decide_eq_true (List.prefix_append _ cs)⟩
  obtain ⟨d, hd⟩ := Option.isSome_iff_exists.mp hfound
  have hprefix : escapeChar d <+: escapeChar c ++ cs :=
    of_decide_eq_true (List.find?_some (p := fun c' => escapeChar c' <+: escapeChar c ++ cs) hd)
  have hspecial : d ∈ specials := List.mem_of_find?_eq_some hd
  rw [hd, Option.some_inj]
  rcases List.prefix_or_prefix_of_prefix hprefix (List.prefix_append _ cs) with hin | hin
  · exact eq_of_prefix_escapeChar h hspecial hin
  · exact (eq_of_prefix_escapeChar hspecial h hin).symm

theorem special?_of_ne (h : c ≠ '\\') : special? (c :: cs) = none := by
  refine List.find?_eq_none.mpr fun d hd hprefix => h ?_
  obtain ⟨rest, hrest⟩ : escapeChar d <+: c :: cs := of_decide_eq_true hprefix
  have hhead := head?_escapeChar hd
  obtain ⟨tail, htail⟩ := List.head?_eq_some_iff.mp hhead
  rw [htail, List.cons_append] at hrest
  exact (List.cons.inj hrest).1.symm

theorem unescapeFrom_length : unescapeFrom a.length (a ++ cs) = unescapeFrom 0 cs := by
  induction a with
  | nil => rfl
  | cons c a ih => exact ih

/-- One piece is read, and what is left is read from its beginning. -/
theorem unescapeFrom_escapeChar (c : Char) :
    unescapeFrom 0 (escapeChar c ++ cs) = c :: unescapeFrom 0 cs := by
  by_cases hc : c ∈ specials
  · obtain ⟨rest, hrest⟩ := List.head?_eq_some_iff.mp (head?_escapeChar hc)
    have hspecial := special?_of_special cs hc
    have hlength : (escapeChar c).length - 1 = rest.length := by rw [hrest]; rfl
    rw [hrest, List.cons_append] at hspecial ⊢
    rw [unescapeFrom, hspecial]
    dsimp only
    rw [hlength, unescapeFrom_length]
  · rw [escapeChar_of_not_special hc, List.singleton_append, unescapeFrom,
      special?_of_ne (ne_backslash_of_not_special hc)]

theorem unescape_escape (s : String) : unescape (escape s) = s := by
  have hread (cs : List Char) : unescapeFrom 0 (cs.flatMap escapeChar) = cs := by
    induction cs with
    | nil => rfl
    | cons c cs ih => rw [List.flatMap_cons, unescapeFrom_escapeChar, ih]
  rw [unescape, escape, String.toList_ofList, hread, String.ofList_toList]

end Reading

section Pieces

/-- A plain character leaves the counter of braces alone. -/
theorem faults_plain {n : Int} (h : ∀ c ∈ a, isPlain c = true) :
    Guarded.braceFaultsFrom n false (a ++ cs) = Guarded.braceFaultsFrom n false cs := by
  induction a with
  | nil => rfl
  | cons c a ih =>
    rw [List.forall_mem_cons] at h
    rw [List.cons_append, Guarded.braceFaultsFrom, ih h.2]
    simp_all [isPlain]

theorem faults_escaped {n : Int} (h : c ≠ '\\') :
    Guarded.braceFaultsFrom n false ('\\' :: c :: cs) = Guarded.braceFaultsFrom n false cs := by
  simp [Guarded.braceFaultsFrom, h]

theorem faults_group : Guarded.braceFaultsFrom 0 false ('\x7b' :: '\x7d' :: cs) =
    Guarded.braceFaultsFrom 0 false cs := by
  rfl

/-- A piece opens one brace at most, so the counter stays in its range however long the text is. -/
theorem faults_escapeChar (c : Char) : Guarded.braceFaultsFrom 0 false (escapeChar c ++ cs) =
    Guarded.braceFaultsFrom 0 false cs := by
  rcases escapeChar_cases c with ⟨name, hne, hname, hc⟩ | ⟨hback, hc⟩ | ⟨hspecial, hc⟩
  · have hplain : ∀ d ∈ name, isPlain d = true := fun d hd =>
      isPlain_of (by decide) (List.all_eq_true.mp hname d hd)
    obtain ⟨d, name, rfl⟩ := List.exists_cons_of_ne_nil hne
    rw [List.forall_mem_cons] at hplain
    have hd : d ≠ '\\' := by
      rintro rfl
      exact absurd hplain.1 (by decide)
    rw [hc, List.append_assoc, List.cons_append, List.cons_append, faults_escaped hd,
      faults_plain hplain.2]
    exact faults_group
  · rw [hc]
    exact faults_escaped fun h => hback (by simp [h])
  · rw [hc]
    exact faults_plain (by simp_all [specials, isPlain])

/-- A command is made of letters, its backslash and its braces. -/
theorem notMem_command {name ds : List Char}
    (hds : ds.all (fun d => !d.isAlpha && d ∉ ['\\', '\x7b', '\x7d']) = true)
    (hname : name.all Char.isAlpha = true) : ∀ d ∈ '\\' :: name ++ ['\x7b', '\x7d'], d ∉ ds := by
  intro d hd hin
  have hother := List.all_eq_true.mp hds d hin
  simp only [List.cons_append, List.mem_cons, List.mem_append, List.not_mem_nil, or_false] at hd
  rcases hd with rfl | hd | rfl | rfl
  · simp at hother
  · simp [List.all_eq_true.mp hname d hd] at hother
  · simp at hother
  · simp at hother

theorem notMem_escapeChar (c : Char) : ∀ d ∈ escapeChar c, d ∉ ['~', '^'] := by
  rcases escapeChar_cases c with ⟨name, -, hname, hc⟩ | ⟨hcommand, hc⟩ | ⟨hspecial, hc⟩ <;> rw [hc]
  · exact notMem_command (by decide) hname
  · simp_all
  · simp_all [specials]

end Pieces

section Guards

theorem backslashRun_append (ha : backslashRun a = 0) (hb : backslashRun b = 0) :
    backslashRun (a ++ b) = 0 := by
  rcases List.eq_nil_or_concat' b with rfl | ⟨b, c, rfl⟩
  · rwa [List.append_nil]
  · rw [backslashRun_concat] at hb
    rw [← List.append_assoc, backslashRun_concat]
    split at hb <;> simp_all

namespace Guards

theorem nil : Guards [] where
  mark := by simp
  ends := rfl

theorem append (ha : Guards a) (hb : Guards b) : Guards (a ++ b) where
  mark := by
    intro before c after hsplit hc
    rcases List.append_eq_append_iff.mp hsplit with ⟨rest, rfl, hrest⟩ | ⟨rest, ha', hrest⟩
    · obtain ⟨front, rfl, hfront⟩ := hb.mark rest c after hrest hc
      exact ⟨a ++ front, (List.append_assoc ..).symm, backslashRun_append ha.ends hfront⟩
    · rcases List.cons_eq_append_iff.mp hrest with ⟨rfl, hb'⟩ | ⟨rest, rfl, -⟩
      · obtain ⟨front, hnil, -⟩ := hb.mark [] c after hb' hc
        simp at hnil
      · exact ha.mark before c rest ha' hc
  ends := backslashRun_append ha.ends hb.ends

/-- A text without marks that does not end in a backslash. -/
theorem of_unmarked (hmarks : ∀ c ∈ cs, c ∉ marks) (hends : backslashRun cs = 0) : Guards cs where
  mark := fun before c after hsplit hc => absurd hc (hmarks c (by simp [hsplit]))
  ends := hends

theorem escaped (h : c ≠ '\\') : Guards ['\\', c] where
  mark := by
    intro before d after hsplit hd
    rcases List.cons_eq_append_iff.mp hsplit with ⟨rfl, hback⟩ | ⟨front, rfl, hfront⟩
    · obtain ⟨rfl, -⟩ := List.cons.inj hback
      exact absurd hd (by decide)
    · rcases List.cons_eq_append_iff.mp hfront with ⟨rfl, -⟩ | ⟨rest, -, hrest⟩
      · exact ⟨[], rfl, rfl⟩
      · simp at hrest
  ends := by
    rw [← List.singleton_append, backslashRun_concat, if_neg h]

theorem of_escapeChar (c : Char) : Guards (escapeChar c) := by
  rcases escapeChar_cases c with ⟨name, -, hname, hc⟩ | ⟨hback, hc⟩ | ⟨hspecial, hc⟩ <;> rw [hc]
  · refine of_unmarked (notMem_command (by decide) hname) ?_
    rw [List.append_cons, backslashRun_concat]
    rfl
  · exact escaped fun h => hback (by simp [h])
  · refine of_unmarked (by simp_all [specials, marks]) ?_
    rw [← List.nil_append [c], backslashRun_concat, if_neg (ne_backslash_of_not_special hspecial)]

end Guards
end Guards

theorem harmless_escape (s : String) : Harmless (escape s) := by
  have hclosed := closed_iff.mp (closed_escape s)
  constructor
  case no_ampersand => exact hclosed.1
  case no_fault =>
    refine ⟨?_, hclosed.2⟩
    rw [Guarded.braceFaults, escape, String.toList_ofList]
    induction s.toList with
    | nil => rfl
    | cons c cs ih => rw [List.flatMap_cons, faults_escapeChar, ih]
  case no_active =>
    rw [escape, String.toList_ofList]
    constructor <;>
      · rw [List.mem_flatMap]
        rintro ⟨c, -, hc⟩
        exact notMem_escapeChar c _ hc (by simp)
  case guards =>
    rw [escape, String.toList_ofList]
    induction s.toList with
    | nil => exact .nil
    | cons c cs ih => exact (Guards.of_escapeChar c).append ih

/-- Escaping loses nothing and leaves nothing to report: every text is read back from its escaped
form, no two texts share one, and the escaped text is harmless. -/
theorem escape_lossless : (∀ s, unescape (escape s) = s) ∧ Function.Injective escape ∧
    ∀ s, Harmless (escape s) :=
  ⟨unescape_escape, Function.LeftInverse.injective unescape_escape, harmless_escape⟩

end LatexTable.Text
