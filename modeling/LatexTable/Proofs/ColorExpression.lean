import LatexTable.Proofs.Color
/-!
The grammar of colours: six hexadecimal digits, or a name mixed with others by percentages. An
expression is a tree with one written form; a text is parsed as a colour exactly when it is one of
these forms, and the names of the parsed colour are those in the tree.
-/
namespace LatexTable.Color
open Text

/-- A letter, and letters and digits behind it. -/
def Name (cs : List Char) : Prop :=
  ∃ first rest, cs = first :: rest ∧ first.isAlpha = true ∧ ∀ c ∈ rest, c.isAlphanum = true

/-- One to three digits. -/
def Percentage (cs : List Char) : Prop :=
  (1 ≤ cs.length ∧ cs.length ≤ 3) ∧ ∀ c ∈ cs, c.isDigit = true

/-- A percentage and, perhaps, the name of a colour to mix with. -/
structure Mix where
  percentage : List Char
  name? : Option (List Char)
  percentage_form : Percentage percentage
  name_form : ∀ name ∈ name?, Name name

structure Expression where
  base : List Char
  mixes : List Mix
  base_form : Name base

def Mix.written (m : Mix) : List Char := '!' :: m.percentage ++ m.name?.elim [] ('!' :: ·)

def Expression.written (e : Expression) : List Char := e.base ++ e.mixes.flatMap Mix.written

/-- The names from left to right. -/
def Expression.names (e : Expression) : List (List Char) := e.base :: e.mixes.filterMap Mix.name?

/-- Six hexadecimal digits behind a mark, or alone when one of them is decimal. -/
def Hexadecimal (cs digits : List Char) : Prop :=
  (digits.length = 6 ∧ ∀ c ∈ digits, c.isHexDigit = true) ∧
    (cs = '#' :: digits ∨ (cs = digits ∧ ∃ c ∈ digits, c.isDigit = true))

variable {cs digits : List Char} {m : Mix} {mixes : List Mix} {e : Expression} {c : Char}
  {s x : String} {color : Color} {err : TableError}

section Names

theorem isAsciiDigit_eq (c : Char) : isAsciiDigit c = c.isDigit := rfl

theorem isAsciiLetter_eq (c : Char) : isAsciiLetter c = c.isAlpha := by
  have hupper : c.isUpper = (decide ('A' ≤ c) && decide (c ≤ 'Z')) := Bool.decide_and _ _
  have hletter : isAsciiLetter c = (c.isLower || c.isUpper) := by
    rw [hupper]
    rfl
  rw [hletter, Bool.or_comm]
  rfl

theorem isHexDigit_eq (c : Char) : isHexDigit c = c.isHexDigit := rfl

theorem isName_iff : isName cs = true ↔ Name cs := by
  cases cs with
  | nil => simp [isName, Name]
  | cons c cs => simp [isName, Name, isAsciiLetter_eq, isAsciiDigit_eq, Char.isAlphanum]

theorem isPercentage_iff : isPercentage cs = true ↔ Percentage cs := by
  simp [isPercentage, Percentage, isAsciiDigit_eq]

theorem isColorChar_of_isAlphanum (h : c.isAlphanum = true) : isColorChar c = true := by
  simp only [Char.isAlphanum, Bool.or_eq_true] at h
  simp [isColorChar, isAsciiLetter_eq, isAsciiDigit_eq, h]

theorem isAlphanum_or_of_isColorChar (h : isColorChar c = true) :
    c.isAlphanum = true ∨ c = '!' := by
  simpa [isColorChar, isAsciiLetter_eq, isAsciiDigit_eq, Char.isAlphanum] using h

/-- Neither names nor percentages hold the mark between them. -/
theorem ne_mark_of_isAlphanum (h : c.isAlphanum = true) : c ≠ '!' := by
  rintro rfl
  exact absurd h (by decide)

theorem isAlpha_of_isDigit (h : c.isDigit = true) : c.isAlpha = false := by
  have hchar : isColorChar c = true := isColorChar_of_isAlphanum (by simp [Char.isAlphanum, h])
  exact forall_ascii (P := fun c => c.isDigit = true → c.isAlpha = false) (by decide)
    (toNat_lt_of_isColorChar hchar) h

theorem Name.isAlphanum (h : Name cs) : ∀ c ∈ cs, c.isAlphanum = true := by
  obtain ⟨first, rest, rfl, hfirst, hrest⟩ := h
  rw [List.forall_mem_cons]
  exact ⟨by simp [Char.isAlphanum, hfirst], hrest⟩

theorem Percentage.isAlphanum (h : Percentage cs) : ∀ c ∈ cs, c.isAlphanum = true :=
  fun c hc => by simp [Char.isAlphanum, h.2 c hc]

/-- A name begins with a letter, so that it is no percentage. -/
theorem Name.not_digits (h : Name cs) : cs.all Char.isDigit = false := by
  obtain ⟨first, rest, rfl, hfirst, -⟩ := h
  rw [← Bool.not_eq_true, List.all_cons, Bool.and_eq_true, not_and]
  intro hdigit
  simp [isAlpha_of_isDigit hdigit] at hfirst

theorem Percentage.not_name (h : Percentage cs) : ¬Name cs := by
  intro hname
  have hall : cs.all Char.isDigit = true := List.all_eq_true.mpr h.2
  simp [hname.not_digits] at hall

end Names

section Pieces

/-- The parts between the marks. -/
def Mix.pieces (m : Mix) : List (List Char) := m.percentage :: m.name?.toList

theorem Mix.written_eq (m : Mix) : m.written = m.pieces.flatMap ('!' :: ·) := by
  unfold written pieces
  cases m.name? <;> simp

theorem Expression.written_eq (e : Expression) :
    e.written = joined '!' e.base (e.mixes.flatMap Mix.pieces) := by
  rw [written, joined, List.flatMap_assoc, funext Mix.written_eq]

theorem Mix.isAlphanum (m : Mix) : ∀ piece ∈ m.pieces, ∀ c ∈ piece, c.isAlphanum = true := by
  rw [pieces, List.forall_mem_cons]
  refine ⟨m.percentage_form.isAlphanum, fun piece hp => ?_⟩
  exact (m.name_form piece (Option.mem_toList.mp hp)).isAlphanum

theorem Expression.splitAt_written (e : Expression) :
    splitAt '!' e.written = e.base :: e.mixes.flatMap Mix.pieces := by
  rw [written_eq]
  apply splitAt_joined
  rw [List.forall_mem_cons]
  constructor
  · exact fun hmem => ne_mark_of_isAlphanum (e.base_form.isAlphanum _ hmem) rfl
  · intro piece hp hmem
    obtain ⟨m, -, hp⟩ := List.mem_flatMap.mp hp
    exact ne_mark_of_isAlphanum (m.isAlphanum piece hp _ hmem) rfl

/-- A mix without a name ends where the next percentage begins. -/
theorem areMixes_pieces (mixes : List Mix) : areMixes (mixes.flatMap Mix.pieces) = true := by
  induction mixes with
  | nil => rfl
  | cons m mixes ih =>
    have hpercentage := isPercentage_iff.mpr m.percentage_form
    rw [List.flatMap_cons, Mix.pieces]
    cases hname : m.name? with
    | some name =>
      have hform := isName_iff.mpr (m.name_form name hname)
      simpa [areMixes, hpercentage, hform] using ih
    | none =>
      cases mixes with
      | nil => simpa [areMixes] using hpercentage
      | cons next mixes =>
        have hnext : isName next.percentage = false := by
          rw [← Bool.not_eq_true, isName_iff]
          exact next.percentage_form.not_name
        simpa [Mix.pieces, areMixes, hpercentage, hnext] using ih

theorem exists_mixes {pieces : List (List Char)} (h : areMixes pieces = true) :
    ∃ mixes : List Mix, pieces = mixes.flatMap Mix.pieces := by
  induction pieces using areMixes.induct with
  | case1 => exact ⟨[], rfl⟩
  | case2 percentage => exact ⟨[⟨percentage, none, isPercentage_iff.mp h, by simp⟩], rfl⟩
  | case3 percentage next rest ihRest ihNext =>
    rw [areMixes, Bool.and_eq_true] at h
    obtain ⟨hpercentage, h⟩ := h
    split at h
    next hname =>
      obtain ⟨mixes, rfl⟩ := ihRest h
      have hform : ∀ name ∈ some next, Name name := by simpa using isName_iff.mp hname
      exact ⟨⟨percentage, some next, isPercentage_iff.mp hpercentage, hform⟩ :: mixes, rfl⟩
    next =>
      obtain ⟨mixes, hmixes⟩ := ihNext h
      refine ⟨⟨percentage, none, isPercentage_iff.mp hpercentage, by simp⟩ :: mixes, ?_⟩
      rw [hmixes]
      rfl

/-- The reader of expressions accepts the written forms of trees. -/
theorem isExpression_iff : isExpression cs = true ↔ ∃ e : Expression, e.written = cs := by
  constructor
  · intro h
    obtain ⟨base, pieces, hsplit⟩ := List.exists_cons_of_ne_nil (splitAt_ne_nil '!' cs)
    simp only [isExpression, hsplit, Bool.and_eq_true] at h
    obtain ⟨mixes, rfl⟩ := exists_mixes h.2
    refine ⟨⟨base, mixes, isName_iff.mp h.1⟩, ?_⟩
    rw [Expression.written_eq, eq_joined_of_splitAt hsplit]
  · rintro ⟨e, rfl⟩
    simp only [isExpression, e.splitAt_written, Bool.and_eq_true]
    exact ⟨isName_iff.mpr e.base_form, areMixes_pieces e.mixes⟩

/-- Of the parts of a mix only the name is no number. -/
theorem Mix.filter_pieces (m : Mix) :
    m.pieces.filter (fun piece => !piece.all isAsciiDigit) = m.name?.toList := by
  have hpercentage : m.percentage.all isAsciiDigit = true :=
    List.all_eq_true.mpr m.percentage_form.2
  rw [pieces, List.filter_cons_of_neg (by simp [hpercentage]), List.filter_eq_self]
  intro name hname
  rw [Bool.not_eq_true']
  exact (m.name_form name (Option.mem_toList.mp hname)).not_digits

theorem Expression.baseNames_written (e : Expression) :
    baseNames (.named (String.ofList e.written)) = e.names.map String.ofList := by
  have hbase : (!e.base.all isAsciiDigit) = true := by
    rw [Bool.not_eq_true']
    exact e.base_form.not_digits
  rw [baseNames, String.toList_ofList, e.splitAt_written,
    List.filter_cons_of_pos (p := fun piece : List Char => !piece.all isAsciiDigit) hbase,
    List.filter_flatMap, funext Mix.filter_pieces, names, List.filterMap_eq_flatMap_toList]

end Pieces

theorem hexDigits?_iff : hexDigits? cs = some digits ↔ Hexadecimal cs digits := by
  simp only [hexDigits?_eq_some, isHexDigit_eq, isAsciiDigit_eq]
  constructor
  · rintro ⟨hdigits, hlength, hhex, hmark⟩
    refine ⟨⟨hlength, hhex⟩, ?_⟩
    split at hdigits
    next hhead =>
      obtain ⟨rest, rfl⟩ := List.head?_eq_some_iff.mp hhead
      rw [hdigits]
      exact .inl rfl
    next hhead => exact .inr ⟨hdigits.symm, hmark.resolve_left hhead⟩
  · rintro ⟨⟨hlength, hhex⟩, rfl | ⟨rfl, hdecimal⟩⟩
    · exact ⟨rfl, hlength, hhex, .inl rfl⟩
    · have hhead : cs.head? ≠ some '#' := by
        intro hhead
        exact absurd (hhex '#' (List.mem_of_head? hhead)) (by decide)
      exact ⟨(if_neg hhead).symm, hlength, hhex, .inr hdecimal⟩

theorem hexDigits?_eq_none_iff : hexDigits? cs = none ↔ ¬∃ digits, Hexadecimal cs digits := by
  rw [← Option.not_isSome_iff_eq_none, Option.isSome_iff_exists]
  simp only [hexDigits?_iff]

/-- When a text is a colour, which colour it is, and how it is refused otherwise. -/
structure ReadByGrammar (s : String) : Prop where
  succeeds_iff : (∃ color, parse s = .ok color) ↔
    (∃ digits, Hexadecimal (trim s).toList digits) ∨ ∃ e : Expression, e.written = (trim s).toList
  html_iff : ∀ x, parse s = .ok (.html x) ↔
    ∃ digits, Hexadecimal (trim s).toList digits ∧ x = String.ofList (digits.map Char.toUpper)
  named_iff : ∀ x, parse s = .ok (.named x) ↔
    (¬∃ digits, Hexadecimal (trim s).toList digits) ∧
      (∃ e : Expression, e.written = (trim s).toList) ∧ x = trim s
  refused : ∀ err, parse s = .error err → err = .invalidColor s

theorem readByGrammar (s : String) : ReadByGrammar s where
  succeeds_iff := by
    simp only [parse_eq_ok, hexDigits?_iff, hexDigits?_eq_none_iff, isExpression_iff]
    constructor
    · rintro ⟨color, ⟨digits, hdigits, -⟩ | ⟨-, hexpression, -⟩⟩
      · exact .inl ⟨digits, hdigits⟩
      · exact .inr hexpression
    · intro h
      by_cases hdigits : ∃ digits, Hexadecimal (trim s).toList digits
      · obtain ⟨digits, hdigits⟩ := hdigits
        exact ⟨_, .inl ⟨digits, hdigits, rfl⟩⟩
      · exact ⟨_, .inr ⟨hdigits, h.resolve_left hdigits, rfl⟩⟩
  html_iff x := by
    simp only [parse_eq_ok, hexDigits?_iff, html.injEq, reduceCtorEq, and_false, or_false]
  named_iff x := by
    simp only [parse_eq_ok, hexDigits?_eq_none_iff, isExpression_iff, named.injEq, reduceCtorEq,
      and_false, exists_false, false_or]
  refused err h := by
    unfold parse at h
    split at h <;> cases h
    rfl

/-- The characters that end an argument or a key, or begin a command. -/
def marks : List Char := ['\x7b', '\x7d', '[', ']', ',', '=', '\\']

/-- Letters, digits and exclamation marks. -/
def Harmless (cs : List Char) : Prop := ∀ c ∈ cs, c.isAlphanum = true ∨ c = '!'

/-- What is written for a colour: a text that is read as the same colour again, and an argument
and a key that hold nothing that could end either. -/
structure Stable (color : Color) : Prop where
  reread : parse color.text = .ok color
  named : ∀ e : Expression, color = .named (String.ofList e.written) →
    color.baseNames = e.names.map String.ofList
  html : ∀ x, color = .html x → color.baseNames = []
  key : Harmless color.keyName.toList
  argument : ∃ inner, Harmless inner ∧ (color.arguments.toList = '\x7b' :: (inner ++ ['\x7d']) ∨
    color.arguments.toList = "[HTML]\x7b".toList ++ (inner ++ ['\x7d']))
  unbroken : ∀ mark ∈ marks, mark ∉ color.keyName.toList ∧ mark ∉ color.word.toList

theorem harmless_word (h : parse s = .ok color) : Harmless color.word.toList :=
  fun c hc => isAlphanum_or_of_isColorChar (isColorChar_of_parse h c hc)

theorem harmless_keyName (h : parse s = .ok color) : Harmless color.keyName.toList := by
  have hword := harmless_word h
  cases color with
  | named x => exact hword
  | html x =>
    have hlabel : ("tgrid".toList.all Char.isAlphanum) = true := by decide
    intro c hc
    rw [keyName, String.toList_append] at hc
    exact (List.mem_append.mp hc).elim (fun hc => .inl (List.all_eq_true.mp hlabel c hc)) (hword c)

theorem Harmless.notMem (h : Harmless cs) : ∀ mark ∈ marks, mark ∉ cs :=
  notMem_of_class (p := fun c => c.isAlphanum || c = '!') (by simpa [Harmless] using h) (by decide)

theorem stable_of_parse (h : parse s = .ok color) : color.Stable where
  reread := parse_text h
  named := by
    rintro e rfl
    exact e.baseNames_written
  html := by
    rintro x rfl
    rfl
  key := harmless_keyName h
  argument := by
    refine ⟨color.word.toList, harmless_word h, ?_⟩
    cases color with
    | named x => exact .inl (by simp [arguments, word])
    | html x => exact .inr (by simp [arguments, word])
  unbroken mark hmark :=
    ⟨(harmless_keyName h).notMem mark hmark, (harmless_word h).notMem mark hmark⟩

/-- Texts are parsed by the grammar of colours, and a parsed colour is stable under writing. -/
theorem parsed_by_grammar (s : String) :
    ReadByGrammar s ∧ ∀ color, parse s = .ok color → color.Stable :=
  ⟨readByGrammar s, fun _ => stable_of_parse⟩

theorem parsed_by_grammar_mixed :
    let s := "\u2003Decade!5!a1b!100 "
    let color : Color := .named "Decade!5!a1b!100"
    parse s = .ok color ∧ ReadByGrammar s ∧ color.Stable := by
  intro s color
  have hparse : parse s = .ok color := by decide
  obtain ⟨hread, hstable⟩ := parsed_by_grammar s
  exact ⟨hparse, hread, hstable color hparse⟩

end LatexTable.Color
