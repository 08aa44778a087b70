import LatexTable.Latex.RowUnit
import LatexTable.Proofs.Latex.Writable
import LatexTable.Proofs.Text.Pieces
/-!
Reading a unit of a tabular row back: the columns and rows that it spans, and its text. Every
command around the text begins in its own way, and the text itself holds no command.
-/
namespace LatexTable.Latex
open Text

/-- The text in the innermost braces. -/
def readText (cs : List Char) : List Char :=
  (cs.reverse.takeWhile (· ≠ '\x7b')).reverse.takeWhile (· ≠ '\x7d')

/-- The digits of the row span, and what the span is about. -/
def readRows (cs : List Char) : List Char × List Char :=
  match behind? "\\multirow".toList cs with
  | none => (digits 1, cs)
  | some rest =>
    let (rows, rest) := cut '\x7d' (cut '\x7b' rest).2
    (rows, rest.drop 4)

/-- What stands behind the fill. -/
def readFill (cs : List Char) : List Char :=
  match behind? "\\cellcolor".toList cs with
  | none => cs
  | some rest => (cut '\x7d' rest).2.tail

/-- The digits of the column span, and what the span is about. -/
def readColumns (cs : List Char) : List Char × List Char :=
  match behind? "\\multicolumn\x7b".toList cs with
  | none => (digits 1, cs)
  | some rest =>
    let (columns, rest) := cut '\x7d' rest
    (columns, (cut '\x7d' rest).2.tail)

/-- Column span, row span and text of a unit. -/
def readUnit (cs : List Char) : List Char × List Char × List Char :=
  let (columns, rest) := readColumns cs
  let (rows, rest) := readRows (readFill rest)
  (columns, rows, readText rest)

variable {text cs tail a b : List Char} {c : Cell} {x : Char}

/-- A text inside of emphasis and colour commands. -/
inductive Wrapped (text : List Char) : List Char → Prop where
  | bare : Wrapped text text
  | wrap (command : List Char) {cs : List Char} : Wrapped text cs →
      Wrapped text ('\\' :: 't' :: (command ++ '\x7b' :: (cs ++ ['\x7d'])))

theorem takeWhile_append_stop {p : Char → Bool} (hx : p x = false) :
    (a ++ x :: b).takeWhile p = a.takeWhile p := by
  induction a with
  | nil => simp [hx]
  | cons d a ih => simp [List.takeWhile_cons, ih]

/-- Nothing before an opening brace is read. -/
theorem readText_group : readText (a ++ '\x7b' :: b) = readText b := by
  rw [readText, List.reverse_append, List.reverse_cons, List.append_assoc, List.singleton_append,
    takeWhile_append_stop (by decide), readText]

theorem readText_bare (hopen : '\x7b' ∉ text) (hclose : '\x7d' ∉ text)
    (htail : ∀ d ∈ tail, d = '\x7d') : readText (text ++ tail) = text := by
  have hinner : ∀ d ∈ (text ++ tail).reverse, (decide (d ≠ '\x7b')) = true := by
    intro d hd
    rcases List.mem_append.mp (List.mem_reverse.mp hd) with hd | hd
    · exact decide_eq_true (ne_of_mem_of_not_mem hd hopen)
    · rw [htail d hd]
      rfl
  have htext : ∀ d ∈ text, (decide (d ≠ '\x7d')) = true := fun d hd =>
    decide_eq_true (ne_of_mem_of_not_mem hd hclose)
  rw [readText, List.takeWhile_eq_self_iff.mpr hinner, List.reverse_reverse,
    List.takeWhile_append_of_pos htext]
  cases tail with
  | nil => simp
  | cons d tail => simp [htail d List.mem_cons_self]

theorem Wrapped.readText (h : Wrapped text cs) (hopen : '\x7b' ∉ text) (hclose : '\x7d' ∉ text) :
    ∀ {tail : List Char}, (∀ d ∈ tail, d = '\x7d') → readText (cs ++ tail) = text := by
  induction h with
  | bare => exact readText_bare hopen hclose
  | wrap command h ih =>
    intro tail htail
    have hcons : ∀ d ∈ '\x7d' :: tail, d = '\x7d' := by simpa using htail
    rw [List.cons_append, List.cons_append, List.append_assoc, List.cons_append, List.append_assoc,
      ← List.cons_append, ← List.cons_append, readText_group]
    exact ih hcons

/-- A wrapped text does not begin like a command of another kind. -/
theorem Wrapped.behind?_eq_none (h : Wrapped text cs) (hback : '\\' ∉ text)
    (htail : ∀ d ∈ tail, d = '\x7d') (hx : x ≠ 't') (command : List Char) :
    behind? ('\\' :: x :: command) (cs ++ tail) = none := by
  cases h with
  | bare =>
    apply Text.behind?_eq_none
    intro hmem
    rcases List.mem_append.mp hmem with hmem | hmem
    · exact hback hmem
    · cases htail _ hmem
  | wrap => simp [behind?, hx]

theorem emphasized_wrapped (c : Cell) : Wrapped (trimmed c.text.toList) c.emphasized.toList := by
  unfold Cell.emphasized
  split
  next hblank =>
    have hnil : trimmed c.text.toList = [] := by
      rw [← toList_trim, nonBlank?_eq_none.mp hblank]
      rfl
    rw [hnil]
    exact .bare
  next text htext =>
    obtain ⟨rfl, -⟩ := nonBlank?_eq_some.mp htext
    rw [← toList_trim]
    have hitalic : Wrapped (trim c.text).toList
        (if c.style.isItalic then "\\textit" ++ braced (trim c.text) else trim c.text).toList := by
      split
      · simpa [braced] using Wrapped.wrap "extit".toList Wrapped.bare
      · exact .bare
    have hbold {s : String} (hs : Wrapped (trim c.text).toList s.toList) :
        Wrapped (trim c.text).toList
          (if c.style.isBold then "\\textbf" ++ braced s else s).toList := by
      split
      · simpa [braced] using Wrapped.wrap "extbf".toList hs
      · exact hs
    dsimp only
    split
    · exact hbold hitalic
    next color _ =>
      simpa [braced] using
        Wrapped.wrap ("extcolor".toList ++ color.arguments.toList) (hbold hitalic)

variable {color : Color}

theorem readFill_fill (h : c.Writable) (hb : c.style.background = some color) :
    readFill (("\\cellcolor" ++ color.arguments ++ " ").toList ++ cs) = cs := by
  have hword : '\x7d' ∉ color.word.toList := h.notMem_background hb (by decide)
  obtain ⟨before, hbefore, hclose⟩ : ∃ before, color.arguments.toList = before ++ ['\x7d'] ∧
      '\x7d' ∉ before := by
    cases color with
    | named expression =>
      exact ⟨'\x7b' :: expression.toList, by simp [Color.arguments],
        by simpa [Color.word] using hword⟩
    | html digits =>
      exact ⟨"[HTML]\x7b".toList ++ digits.toList, by simp [Color.arguments],
        by simpa [Color.word] using hword⟩
  have hshape : ("\\cellcolor" ++ color.arguments ++ " ").toList ++ cs =
      "\\cellcolor".toList ++ (before ++ '\x7d' :: ' ' :: cs) := by
    simp [hbefore]
  rw [readFill, hshape, behind?_append]
  simp only [cut_append hclose, List.tail_cons]

theorem readRows_multirow {position : List Char} (hposition : '\x7b' ∉ position) (n : Nat) :
    readRows ("\\multirow".toList ++ (position ++ '\x7b' :: (digits n ++
      '\x7d' :: '\x7b' :: '*' :: '\x7d' :: '\x7b' :: cs))) = (digits n, cs) := by
  have hdigits : '\x7d' ∉ digits n := notMem_digits n (by decide)
  rw [readRows, behind?_append]
  simp only [cut_append hposition, cut_append hdigits]
  rfl

theorem readColumns_multicolumn {spec : List Char} (hspec : '\x7d' ∉ spec) (n : Nat) :
    readColumns ("\\multicolumn\x7b".toList ++ (digits n ++
      '\x7d' :: ('\x7b' :: spec ++ '\x7d' :: '\x7b' :: cs))) = (digits n, cs) := by
  have hgroup : '\x7d' ∉ '\x7b' :: spec := by simpa using hspec
  have hdigits : '\x7d' ∉ digits n := notMem_digits n (by decide)
  rw [readColumns, behind?_append]
  simp only [cut_append hdigits, cut_append hgroup, List.tail_cons]

/-- The text of a cell with its row span around it. -/
def spanned (c : Cell) : String :=
  if 1 < c.rowSpan then
    "\\multirow" ++ (c.style.valign.map fun v => bracketed v.multirowLetter.toString).getD "" ++
      braced (toString c.rowSpan) ++ braced "*" ++ braced c.emphasized
  else c.emphasized

theorem toList_body (c : Cell) :
    c.body.toList = (match c.style.background with
      | none => []
      | some color => ("\\cellcolor" ++ color.arguments ++ " ").toList) ++ (spanned c).toList := by
  unfold Cell.body Cell.fill?
  cases c.style.background <;> simp [spanned]

theorem readRows_spanned (h : c.Writable) (htail : ∀ d ∈ tail, d = '\x7d') :
    (readRows ((spanned c).toList ++ tail)).1 = digits (max c.rowSpan 1) ∧
      readText (readRows ((spanned c).toList ++ tail)).2 = trimmed c.text.toList := by
  have hwrapped := emphasized_wrapped c
  have hopen : '\x7b' ∉ trimmed c.text.toList := h.notMem_text (by decide)
  have hclose : '\x7d' ∉ trimmed c.text.toList := h.notMem_text (by decide)
  have hback : '\\' ∉ trimmed c.text.toList := h.notMem_text (by decide)
  unfold spanned
  split
  next hspan =>
    have hposition : '\x7b' ∉
        ((c.style.valign.map fun v => bracketed v.multirowLetter.toString).getD "").toList := by
      cases c.style.valign with
      | none => simp
      | some v => cases v <;> decide
    have hshape (position : String) :
        ("\\multirow" ++ position ++ braced (toString c.rowSpan) ++ braced "*" ++
          braced c.emphasized).toList ++ tail =
          "\\multirow".toList ++ (position.toList ++ '\x7b' :: (digits c.rowSpan ++
            '\x7d' :: '\x7b' :: '*' :: '\x7d' :: '\x7b' ::
              (c.emphasized.toList ++ '\x7d' :: tail))) := by
      simp [braced, digits]
    rw [hshape, readRows_multirow hposition, max_eq_left hspan.le]
    exact ⟨rfl, hwrapped.readText hopen hclose (by simpa using htail)⟩
  next hspan =>
    rw [readRows, show "\\multirow".toList = '\\' :: 'm' :: "ultirow".toList from rfl,
      hwrapped.behind?_eq_none hback htail (by decide), max_eq_right (not_lt.mp hspan)]
    exact ⟨rfl, hwrapped.readText hopen hclose htail⟩

theorem readFill_spanned (h : c.Writable) (htail : ∀ d ∈ tail, d = '\x7d') :
    readFill ((spanned c).toList ++ tail) = (spanned c).toList ++ tail := by
  have hnone : behind? "\\cellcolor".toList ((spanned c).toList ++ tail) = none := by
    unfold spanned
    split
    · simp [behind?]
    · exact (emphasized_wrapped c).behind?_eq_none (h.notMem_text (by decide)) htail (by decide)
        "ellcolor".toList
  rw [readFill, hnone]

/-- The reader of a body gives row span and text, whatever braces close behind it. -/
theorem readRows_body (h : c.Writable) (htail : ∀ d ∈ tail, d = '\x7d') :
    (readRows (readFill (c.body.toList ++ tail))).1 = digits (max c.rowSpan 1) ∧
      readText (readRows (readFill (c.body.toList ++ tail))).2 = trimmed c.text.toList := by
  have hfill : readFill (c.body.toList ++ tail) = (spanned c).toList ++ tail := by
    rw [toList_body]
    cases hb : c.style.background with
    | none => exact readFill_spanned h htail
    | some color => rw [List.append_assoc, readFill_fill h hb]
  rw [hfill]
  exact readRows_spanned h htail

theorem readColumns_body (h : c.Writable) :
    readColumns c.body.toList = (digits 1, c.body.toList) := by
  have hnone : behind? "\\multicolumn\x7b".toList c.body.toList = none := by
    rw [toList_body]
    cases c.style.background with
    | some color => simp [behind?]
    | none =>
      rw [List.nil_append]
      unfold spanned
      split
      · simp [behind?]
      · have hwrapped := emphasized_wrapped c
        rw [← List.append_nil c.emphasized.toList]
        exact hwrapped.behind?_eq_none (h.notMem_text (by decide)) (by simp) (by decide)
          "ulticolumn\x7b".toList
  rw [readColumns, hnone]

variable {t : TabularColumns} {col width : Nat} {style : CellStyle}

/-- A unit with a column specification of its own is aligned by a letter. -/
theorem mem_unitSpec (h : 1 < width ∨ t.overridesAlignment col style = true) :
    ∀ d ∈ (t.unitSpec col width style).toList, d ∈ ['l', 'c', 'r', '|'] := by
  have halignment : ∃ d ∈ ['l', 'c', 'r'], t.alignment col width style = d.toString := by
    unfold TabularColumns.alignment
    split
    next column hj hcolumn =>
      have hcase : ¬(width = 1 && column.kind = .paragraph) = true := by
        simp only [Bool.and_eq_true, decide_eq_true_eq, not_and]
        rintro rfl hkind
        rcases h with h | h
        · omega
        · simp [TabularColumns.overridesAlignment, hj, hcolumn, HAlign.columnKind, hkind] at h
      rw [if_neg hcase]
      exact ⟨'l', by decide, rfl⟩
    next => exact ⟨'l', by decide, rfl⟩
    next halign _ hsome hnone =>
      cases halign
      · exact ⟨'l', by decide, rfl⟩
      · exact ⟨'c', by decide, rfl⟩
      · exact ⟨'r', by decide, rfl⟩
      · cases hcolumn : t.columns[col]? with
        | none => exact (hnone hcolumn rfl).elim
        | some column => exact (hsome column hcolumn rfl).elim
    next column _ _ =>
      refine ⟨column.alignLetter, ?_, rfl⟩
      unfold MappedColumn.alignLetter
      split <;> decide
    next => exact ⟨'c', by decide, rfl⟩
  obtain ⟨letter, hletter, heq⟩ := halignment
  intro d hd
  unfold TabularColumns.unitSpec at hd
  rw [heq] at hd
  simp only [List.mem_cons, List.not_mem_nil, or_false] at hletter ⊢
  split at hd <;> [split at hd; skip] <;> simp at hd <;> grind

theorem readUnit_multicolumn (h : c.Writable)
    (hspec : 1 < width ∨ t.overridesAlignment col c.style = true) (n : Nat) :
    readUnit ("\\multicolumn" ++ braced (toString n) ++ braced (t.unitSpec col width c.style) ++
      braced c.body).toList = (digits n, digits (max c.rowSpan 1), trimmed c.text.toList) := by
  have hclose : '\x7d' ∉ (t.unitSpec col width c.style).toList := by
    intro hmem
    simpa using mem_unitSpec hspec _ hmem
  have hshape (spec : String) : ("\\multicolumn" ++ braced (toString n) ++ braced spec ++
      braced c.body).toList = "\\multicolumn\x7b".toList ++ (digits n ++
        '\x7d' :: ('\x7b' :: spec.toList ++ '\x7d' :: '\x7b' :: (c.body.toList ++ ['\x7d']))) := by
    simp [braced, digits]
  obtain ⟨hrows, htext⟩ := readRows_body h (show ∀ d ∈ ['\x7d'], d = '\x7d' by simp)
  rw [hshape, readUnit, readColumns_multicolumn hclose]
  exact Prod.ext rfl (Prod.ext hrows htext)

theorem readUnit_body (h : c.Writable) :
    readUnit c.body.toList = (digits 1, digits (max c.rowSpan 1), trimmed c.text.toList) := by
  obtain ⟨hrows, htext⟩ := readRows_body h (show ∀ d ∈ [], d = '\x7d' by simp)
  rw [List.append_nil] at hrows htext
  rw [readUnit, readColumns_body h]
  exact Prod.ext rfl (Prod.ext hrows htext)

/-- The reader gives back spans and text of a visible cell, whatever columns it stands in. -/
theorem readUnit_visible (h : c.Writable) :
    readUnit (t.unitText (.visible col c)).toList =
      (digits (max c.colSpan 1), digits (max c.rowSpan 1), trimmed c.text.toList) := by
  have hwidth : (RowUnit.visible col c).width = max c.colSpan 1 := rfl
  unfold TabularColumns.unitText
  dsimp only
  split
  next hown =>
    rw [Bool.or_eq_true, decide_eq_true_eq] at hown
    exact readUnit_multicolumn h hown _
  next hown =>
    simp only [Bool.or_eq_true, decide_eq_true_eq, not_or, not_lt, hwidth] at hown
    rw [readUnit_body h, show max c.colSpan 1 = 1 by omega]

end LatexTable.Latex
