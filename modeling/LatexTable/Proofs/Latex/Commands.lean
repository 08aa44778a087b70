import LatexTable.Proofs.Color
import LatexTable.Proofs.Text.Pieces
/-!
Where the commands stand that tell which packages a source needs. A piece of source emits the
commands that begin in it, whatever stands behind the piece, so the commands of a source are those
of its pieces.
-/
namespace LatexTable.Latex
open Text

/-- The text stands somewhere in the source. -/
def Contains (s w : String) : Prop := w.toList <:+: s.toList

/-- The commands that switch to a colour. -/
def switches : List String := ["\\textcolor", "\\cellcolor"]

/-- The other commands that a package brings along. -/
def packageCommands : List String :=
  ["\\multirow", "\\definecolor", "\\toprule", "\\midrule", "\\cmidrule", "\\bottomrule",
    beginning "longtable", beginning "tblr", beginning "longtblr"]

/-- What is looked for in a source: a command, or a switch with the arguments of its colour. -/
inductive Watched : String → Prop where
  | command {w : String} : w ∈ packageCommands → Watched w
  | switch {w : String} : w ∈ switches → Watched w
  | color {w : String} {color : Color} : w ∈ switches → (∃ s, Color.parse s = .ok color) →
      Watched (w ++ color.arguments)

variable {s s' u w : String} {P Q : String → Prop} {color color' : Color}

section Colors

theorem plain_of_isColorChar {c : Char} (h : Color.isColorChar c = true) :
    c ≠ '\\' ∧ isBlank c = false :=
  Text.forall_ascii (P := fun c => Color.isColorChar c = true → c ≠ '\\' ∧ isBlank c = false)
    (by decide) (Color.toNat_lt_of_isColorChar h) h

theorem plain_word (h : ∃ s, Color.parse s = .ok color) :
    ∀ c ∈ color.word.toList, c ≠ '\\' ∧ c ≠ '\x7d' ∧ isBlank c = false := by
  obtain ⟨s, hs⟩ := h
  intro c hc
  have hchar := Color.isColorChar_of_parse hs c hc
  refine ⟨(plain_of_isColorChar hchar).1, ?_, (plain_of_isColorChar hchar).2⟩
  rintro rfl
  exact absurd hchar (by decide)

theorem plain_arguments (h : ∃ s, Color.parse s = .ok color) :
    ∀ c ∈ color.arguments.toList, c ≠ '\\' ∧ isBlank c = false := by
  have hmarks : ∀ c ∈ "[HTML]\x7b\x7d".toList, c ≠ '\\' ∧ isBlank c = false := by
    have hall : "[HTML]\x7b\x7d".toList.all (fun c => c ≠ '\\' && !isBlank c) = true := by decide
    simpa only [List.all_eq_true, Bool.and_eq_true, decide_eq_true_eq, Bool.not_eq_true'] using hall
  have hpart : ∀ c ∈ color.arguments.toList, c ∈ "[HTML]\x7b\x7d".toList ∨
      c ∈ color.word.toList := by
    intro c hc
    cases color with
    | named expression =>
      simp only [Color.arguments, String.toList_append, List.mem_append] at hc
      rcases hc with (hc | hc) | hc
      · exact .inl ((by decide : "\x7b".toList ⊆ "[HTML]\x7b\x7d".toList) hc)
      · exact .inr hc
      · exact .inl ((by decide : "\x7d".toList ⊆ "[HTML]\x7b\x7d".toList) hc)
    | html digits =>
      simp only [Color.arguments, String.toList_append, List.mem_append] at hc
      rcases hc with (hc | hc) | hc
      · exact .inl ((by decide : "[HTML]\x7b".toList ⊆ "[HTML]\x7b\x7d".toList) hc)
      · exact .inr hc
      · exact .inl ((by decide : "\x7d".toList ⊆ "[HTML]\x7b\x7d".toList) hc)
  intro c hc
  rcases hpart c hc with hmark | hword
  · exact hmarks c hmark
  · exact ⟨(plain_word h c hword).1, (plain_word h c hword).2.2⟩

/-- The arguments of a parsed colour do not go on where others end. -/
theorem arguments_inj (h : ∃ s, Color.parse s = .ok color) (h' : ∃ s, Color.parse s = .ok color')
    (heq : color.arguments.toList <+: color'.arguments.toList) : color = color' := by
  have hword : color.word.toList ++ ['\x7d'] <+: color'.word.toList ++ ['\x7d'] →
      color.word = color'.word := by
    rintro ⟨rest, hrest⟩
    rw [List.append_assoc, List.singleton_append] at hrest
    have hfree {color : Color} (h : ∃ s, Color.parse s = .ok color) :
        '\x7d' ∉ color.word.toList := fun hmem => (plain_word h _ hmem).2.1 rfl
    exact String.toList_injective (append_cons_inj (hfree h) (hfree h') hrest).1
  cases color <;> cases color' <;> simp [Color.arguments, Color.word] at heq hword ⊢
  · exact hword heq
  · exact hword heq

end Colors

section Commands

theorem commands_apart : ∀ u ∈ packageCommands ++ switches, ∀ w ∈ packageCommands ++ switches,
    u.toList <+: w.toList → u = w := by decide +kernel

theorem commands_shape : ∀ u ∈ packageCommands ++ switches, u.toList.head? = some '\\' ∧
    u.toList.tail ≠ [] ∧ ∀ c ∈ u.toList.tail, c ≠ '\\' ∧ isBlank c = false := by
  have hall : ∀ u ∈ packageCommands ++ switches, u.toList.head? = some '\\' ∧
      u.toList.tail ≠ [] ∧ u.toList.tail.all (fun c => c ≠ '\\' && !isBlank c) = true := by
    decide +kernel
  simpa only [List.all_eq_true, Bool.and_eq_true, decide_eq_true_eq, Bool.not_eq_true'] using hall

/-- Only one command can stand at one place. -/
theorem command_unique {u u' : String} {cs : List Char} (hu : u ∈ packageCommands ++ switches)
    (hu' : u' ∈ packageCommands ++ switches) (h : u.toList <+: cs) (h' : u'.toList <+: cs) :
    u = u' := by
  rcases List.prefix_or_prefix_of_prefix h h' with hle | hle
  · exact commands_apart u hu u' hu' hle
  · exact (commands_apart u' hu' u hu hle).symm

end Commands

namespace Watched

/-- A watched text is a command, behind which the arguments of a colour may stand. -/
theorem exists_append (h : Watched w) : ∃ u ∈ packageCommands ++ switches, ∃ v, w = u ++ v ∧
    (v = "" ∨ u ∈ switches ∧ ∃ color, (∃ s, Color.parse s = .ok color) ∧ v = color.arguments) := by
  cases h with
  | command hw => exact ⟨w, List.mem_append_left _ hw, "", by simp, .inl rfl⟩
  | switch hw => exact ⟨w, List.mem_append_right _ hw, "", by simp, .inl rfl⟩
  | color hw hcolor =>
    exact ⟨_, List.mem_append_right _ hw, _, rfl, .inr ⟨hw, _, hcolor, rfl⟩⟩

theorem exists_cons (h : Watched w) : ∃ c cs, w.toList = '\\' :: c :: cs ∧
    ∀ d ∈ c :: cs, d ≠ '\\' ∧ isBlank d = false := by
  obtain ⟨u, hu, v, rfl, hv⟩ := h.exists_append
  have hbehind : ∀ c ∈ v.toList, c ≠ '\\' ∧ isBlank c = false := by
    rcases hv with rfl | ⟨-, color, hcolor, rfl⟩
    · exact fun _ hc => nomatch hc
    · exact plain_arguments hcolor
  obtain ⟨hhead, htail, hplain⟩ := commands_shape u hu
  obtain ⟨tail, hlist⟩ := List.head?_eq_some_iff.mp hhead
  rw [hlist, List.tail_cons] at htail hplain
  obtain ⟨c, cs, rfl⟩ := List.exists_cons_of_ne_nil htail
  refine ⟨c, cs ++ v.toList, by simp [hlist], ?_⟩
  intro d hd
  rw [← List.cons_append, List.mem_append] at hd
  exact hd.elim (hplain d) (hbehind d)

end Watched

/-- The watched texts that begin in the piece are those with the property. -/
def Emits (s : String) (P : String → Prop) : Prop :=
  ∀ w, Watched w → ∀ rest, w.toList <:+: s.toList ++ rest ↔ P w ∨ w.toList <:+: rest

/-- Nothing that is watched begins in the piece. -/
def Silent (s : String) : Prop := Emits s fun _ => False

namespace Emits

theorem contains (h : Emits s P) (hw : Watched w) : Contains s w ↔ P w := by
  have hall := h w hw []
  obtain ⟨c, cs, hcs, -⟩ := hw.exists_cons
  rw [List.append_nil, List.infix_nil, hcs] at hall
  rw [Contains, hcs, hall]
  simp

theorem congr (h : Emits s P) (hpq : ∀ w, Watched w → (P w ↔ Q w)) : Emits s Q := by
  intro w hw rest
  rw [h w hw rest, hpq w hw]

theorem append (h : Emits s P) (h' : Emits s' Q) : Emits (s ++ s') fun w => P w ∨ Q w := by
  intro w hw rest
  rw [String.toList_append, List.append_assoc, h w hw, h' w hw, or_assoc]

theorem append_silent (h : Emits s P) (h' : Silent s') : Emits (s ++ s') P :=
  (h.append h').congr fun _ _ => by rw [or_false]

theorem join {α : Type} {xs : List α} {f : α → String} {P : α → String → Prop}
    (h : ∀ x ∈ xs, Emits (f x) (P x)) :
    Emits (String.join (xs.map f)) fun w => ∃ x ∈ xs, P x w := by
  intro w hw rest
  rw [String.toList_join, List.flatMap_map]
  induction xs with
  | nil => simp
  | cons x xs ih =>
    rw [List.forall_mem_cons] at h
    rw [List.flatMap_cons, List.append_assoc, h.1 w hw, ih h.2]
    simp [or_assoc]

end Emits

namespace Silent

theorem append_emits (h : Silent s) (h' : Emits s' P) : Emits (s ++ s') P :=
  (Emits.append h h').congr fun _ _ => by rw [false_or]

theorem append (h : Silent s) (h' : Silent s') : Silent (s ++ s') := h.append_emits h'

theorem join {α : Type} {xs : List α} {f : α → String} (h : ∀ x ∈ xs, Silent (f x)) :
    Silent (String.join (xs.map f)) :=
  (Emits.join h).congr fun _ _ => by simp

/-- Without a backslash nothing begins. -/
theorem of_notMem (h : '\\' ∉ s.toList) : Silent s := by
  intro w hw rest
  obtain ⟨c, cs, hcs, -⟩ := hw.exists_cons
  rw [hcs, false_or]
  revert h
  induction s.toList with
  | nil => exact fun _ => Iff.rfl
  | cons d ds ih =>
    intro h
    rw [List.mem_cons, not_or] at h
    rw [List.cons_append, List.infix_cons_iff, ih h.2, List.cons_prefix_cons]
    simp [h.1]

end Silent

section Pieces

/-- A piece that begins with a backslash emits its own beginnings, unless a watched text goes on
behind it. -/
theorem emits_beginnings {v : List Char} (hs : s.toList = '\\' :: v) (hv : '\\' ∉ v)
    (hends : ∀ w, Watched w → s.toList <+: w.toList → w.toList <+: s.toList) :
    Emits s fun w => w.toList <+: s.toList := by
  intro w hw rest
  have htail : w.toList <:+: v ++ rest ↔ w.toList <:+: rest := by
    have hsilent :=
      Silent.of_notMem (s := String.ofList v) (by rwa [String.toList_ofList]) w hw rest
    rwa [String.toList_ofList, false_or] at hsilent
  have hhead : w.toList <+: s.toList ++ rest ↔ w.toList <+: s.toList := by
    refine ⟨fun h => ?_, fun h => h.trans (List.prefix_append _ _)⟩
    exact (List.prefix_or_prefix_of_prefix h (List.prefix_append _ _)).elim id (hends w hw)
  change _ ↔ w.toList <+: s.toList ∨ _
  rw [← htail, ← hhead, hs, List.cons_append, List.infix_cons_iff]

/-- The piece is a command, and `P` holds of the watched texts that can stand at its place. -/
theorem emits_of_same {v : List Char} (hs : s.toList = '\\' :: v) (hv : '\\' ∉ v)
    (hsame : ∀ w, Watched w → s.toList <+: w.toList ∨ w.toList <+: s.toList → P w)
    (hle : ∀ w, P w → w.toList <+: s.toList) : Emits s P :=
  (emits_beginnings hs hv fun w hw h => hle w (hsame w hw (.inl h))).congr fun w hw =>
    ⟨fun h => hsame w hw (.inr h), hle w⟩

theorem exists_backslash (hu : u ∈ packageCommands ++ switches) :
    ∃ v, u.toList = '\\' :: v ∧ '\\' ∉ v := by
  obtain ⟨hhead, -, hplain⟩ := commands_shape u hu
  obtain ⟨v, hv⟩ := List.head?_eq_some_iff.mp hhead
  rw [hv, List.tail_cons] at hplain
  exact ⟨v, hv, fun hmem => (hplain _ hmem).1 rfl⟩

/-- Of two texts that begin at one place, both begin with the same command. -/
theorem base_eq {u u' v v' : String} (hu : u ∈ packageCommands ++ switches)
    (hu' : u' ∈ packageCommands ++ switches)
    (h : (u ++ v).toList <+: (u' ++ v').toList ∨ (u' ++ v').toList <+: (u ++ v).toList) :
    u = u' := by
  simp only [String.toList_append] at h
  rcases h with h | h
  · exact command_unique hu hu' ((List.prefix_append _ _).trans h) (List.prefix_append _ _)
  · exact command_unique hu hu' (List.prefix_append _ _) ((List.prefix_append _ _).trans h)

/-- A command that a package brings along. -/
theorem emits_command (hu : u ∈ packageCommands) : Emits u (· = u) := by
  have hapart : ∀ u ∈ packageCommands, u ∉ switches := by decide
  have hbase : u ∈ packageCommands ++ switches := List.mem_append_left _ hu
  obtain ⟨v, hv, hplain⟩ := exists_backslash hbase
  refine emits_of_same hv hplain (fun w hw h => ?_) fun w hw => hw ▸ List.prefix_rfl
  obtain ⟨u', hu', v', rfl, hv'⟩ := hw.exists_append
  obtain rfl : u = u' := base_eq (v := "") hbase hu' (by simpa using h)
  rcases hv' with rfl | ⟨hswitch, -⟩
  · exact String.append_empty
  · exact absurd hswitch (hapart u hu)

/-- A switch to a colour. -/
theorem emits_switch (hu : u ∈ switches) (hcolor : ∃ s, Color.parse s = .ok color) :
    Emits (u ++ color.arguments) fun w => w = u ∨ w = u ++ color.arguments := by
  have hbase : u ∈ packageCommands ++ switches := List.mem_append_right _ hu
  obtain ⟨v, hv, hplain⟩ := exists_backslash hbase
  have hlist : (u ++ color.arguments).toList = '\\' :: (v ++ color.arguments.toList) := by
    rw [String.toList_append, hv, List.cons_append]
  refine emits_of_same hlist ?_ (fun w hw h => ?_) ?_
  · rw [List.mem_append, not_or]
    exact ⟨hplain, fun hmem => (plain_arguments hcolor _ hmem).1 rfl⟩
  · obtain ⟨u', hu', v', rfl, hv'⟩ := hw.exists_append
    obtain rfl : u = u' := base_eq hbase hu' h
    rcases hv' with rfl | ⟨-, color', hcolor', rfl⟩
    · exact .inl String.append_empty
    · simp only [String.toList_append, List.prefix_append_right_inj] at h
      rcases h with h | h
      · rw [arguments_inj hcolor hcolor' h]
        exact .inr rfl
      · rw [arguments_inj hcolor' hcolor h]
        exact .inr rfl
  · rintro w (rfl | rfl)
    · rw [String.toList_append]
      exact List.prefix_append _ _
    · exact List.prefix_rfl

/-- A command that cannot be taken for one that is watched. -/
theorem silent_command (h : s.toList.head? = some '\\' ∧ '\\' ∉ s.toList.tail ∧
    ∀ u ∈ packageCommands ++ switches, ¬s.toList <+: u.toList ∧ ¬u.toList <+: s.toList) :
    Silent s := by
  obtain ⟨hhead, hplain, hapart⟩ := h
  obtain ⟨v, hv⟩ := List.head?_eq_some_iff.mp hhead
  rw [hv, List.tail_cons] at hplain
  refine emits_of_same hv hplain (fun w hw h => ?_) fun _ => False.elim
  obtain ⟨u, hu, v', rfl, -⟩ := hw.exists_append
  rw [String.toList_append] at h
  rcases h with h | h
  · exact (List.prefix_or_prefix_of_prefix h (List.prefix_append _ _)).elim (hapart u hu).1
      (hapart u hu).2
  · exact (hapart u hu).2 ((List.prefix_append _ _).trans h)

/-- Commands that no package has to bring along. -/
def plainCommands : List String :=
  ["\\textbf", "\\textit", "\\bfseries", "\\itshape", "\\multicolumn", "\\hline", "\\cline",
    "\\caption", "\\label", "\\centering", "\\linewidth", "\\textwidth", "\\columnwidth", "\\end",
    beginning "tabular", beginning "table", beginning "center"]

theorem silent_plainCommand (h : s ∈ plainCommands) : Silent s := by
  have hapart : ∀ s ∈ plainCommands, s.toList.head? = some '\\' ∧ '\\' ∉ s.toList.tail ∧
      ∀ u ∈ packageCommands ++ switches, ¬s.toList <+: u.toList ∧ ¬u.toList <+: s.toList := by
    decide +kernel
  exact silent_command (hapart s h)

theorem silent_empty : Silent "" := Silent.of_notMem (by decide)

/-- The end of a row is no command. -/
theorem silent_rowEnd : Silent " \\\\\n" := by
  intro w hw rest
  obtain ⟨c, cs, hcs, hplain⟩ := hw.exists_cons
  obtain ⟨hbackslash, hblank⟩ := hplain c List.mem_cons_self
  have hnewline : c ≠ '\n' := by
    rintro rfl
    exact absurd hblank (by decide)
  rw [hcs]
  change _ <:+: ' ' :: '\\' :: '\\' :: '\n' :: rest ↔ _
  simp [List.infix_cons_iff, List.cons_prefix_cons, hbackslash, hnewline]

theorem Emits.braced (h : Emits s P) : Emits (braced s) P :=
  ((Silent.of_notMem (by decide)).append_emits h).append_silent (Silent.of_notMem (by decide))

theorem Silent.braced (h : Silent s) : Silent (braced s) := Emits.braced h

theorem silent_toString (n : Nat) : Silent (toString n) :=
  Silent.of_notMem (notMem_digits n (by decide))

theorem Emits.intercalate {α : Type} {xs : List α} {f : α → String} {P : α → String → Prop}
    (hs : Silent s) (h : ∀ x ∈ xs, Emits (f x) (P x)) :
    Emits (s.intercalate (xs.map f)) fun w => ∃ x ∈ xs, P x w := by
  cases xs with
  | nil => exact (Silent.of_notMem (by simp)).congr fun _ _ => by simp
  | cons x xs =>
    rw [List.forall_mem_cons] at h
    have hpieces : s.intercalate ((x :: xs).map f) =
        f x ++ String.join (xs.map fun y => s ++ f y) := by
      apply String.toList_injective
      rw [String.toList_intercalate, List.map_cons, List.map_cons, intercalate_cons]
      simp [String.toList_join, List.flatMap_map]
    rw [hpieces]
    exact (h.1.append (Emits.join fun y hy => hs.append_emits (h.2 y hy))).congr fun _ _ => by simp

end Pieces

section Lines

theorem unlines_append (ls ls' : List String) :
    unlines (ls ++ ls') = unlines ls ++ unlines ls' := by
  apply String.toList_injective
  rw [String.toList_append, toList_unlines, toList_unlines, toList_unlines, List.map_append,
    lines_append]

theorem unlines_singleton (l : String) : unlines [l] = l ++ "\n" := by
  apply String.toList_injective
  rw [toList_unlines]
  simp

theorem unlines_flatMap {α : Type} (xs : List α) (f : α → List String) :
    unlines (xs.flatMap f) = String.join (xs.map fun x => unlines (f x)) := by
  apply String.toList_injective
  simp [unlines, String.toList_join, List.flatMap_map, List.flatMap_assoc, List.map_flatMap]

theorem silent_newline : Silent "\n" := Silent.of_notMem (by decide)

/-- Lines that are not ended by the end of a row. -/
theorem silent_unlines {ls : List String} (h : ∀ l ∈ ls, Silent l) : Silent (unlines ls) :=
  Silent.join fun l hl => (h l hl).append silent_newline

theorem infix_append_blanks {w kept blanks : List Char} (hne : w ≠ [])
    (hw : ∀ d ∈ w, isBlank d = false) (hblanks : ∀ d ∈ blanks, isBlank d = true) :
    w <:+: kept ++ blanks ↔ w <:+: kept := by
  induction blanks using List.reverseRecOn with
  | nil => rw [List.append_nil]
  | append_singleton ds d ih =>
    have hlast : ¬w <:+ (kept ++ ds) ++ [d] := by
      rw [List.suffix_concat_iff]
      rintro (hnil | ⟨front, rfl, -⟩)
      · exact hne hnil
      · have hd := hblanks d (by simp)
        simp [hw d (by simp)] at hd
    rw [← List.append_assoc, List.infix_concat_iff, or_iff_right hlast]
    exact ih fun e he => hblanks e (List.mem_append_left _ he)

/-- Blanks at the end of a source do not matter. -/
theorem contains_trimEnd (hw : Watched w) : Contains (trimEnd s) w ↔ Contains s w := by
  obtain ⟨c, cs, hcs, hplain⟩ := hw.exists_cons
  have hmarks : ∀ d ∈ w.toList, isBlank d = false := by
    rw [hcs, List.forall_mem_cons]
    exact ⟨by decide, fun d hd => (hplain d hd).2⟩
  have hsplit : dropEndWhile isBlank s.toList ++ s.toList.rtakeWhile isBlank = s.toList :=
    List.rdropWhile_append_rtakeWhile
  have hend : (trimEnd s).toList = dropEndWhile isBlank s.toList := String.toList_ofList
  rw [Contains, Contains, hend, ← infix_append_blanks (by simp [hcs]) hmarks
    fun d => List.mem_rtakeWhile_imp, hsplit]

end Lines
end LatexTable.Latex
