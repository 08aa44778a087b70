import LatexTable.Latex.RowUnit
import LatexTable.Latex.Tblr
import LatexTable.Proofs.Latex.ColumnTokens
/-!
Column specifications. Tokens stand one behind the other and some begin like others, but none begins
with a bracket and what stands in brackets or braces does not close them. So a specification can be
read in one way, and declares the columns of the table.
-/
namespace LatexTable.Latex
open Text

/-- What declares a column: a letter, or a letter with an argument. -/
inductive ColumnToken : String → Prop
  | letter {t : String} (h : t ∈ ["l", "c", "r", "X"]) : ColumnToken t
  | weighted {body : String} (h : ']' ∉ body.toList) : ColumnToken ("X[" ++ body ++ "]")
  | keyed {body : String} (h : ']' ∉ body.toList) : ColumnToken ("Q[" ++ body ++ "]")
  | paragraph {body : String} (h : '\x7d' ∉ body.toList) :
      ColumnToken ("p\x7b" ++ body ++ "\x7d")

/-- The pieces make up the specification, and each is a vertical line or declares a column. -/
structure IsReading (spec : String) (pieces : List String) : Prop where
  joined : String.join pieces = spec
  piece : ∀ p ∈ pieces, p = "|" ∨ ColumnToken p

/-- The specification has one reading, which declares `n` columns, each by its token. -/
structure Declares (spec : String) (n : Nat) (columns : List MappedColumn) : Prop where
  readable : ∃! pieces, IsReading spec pieces
  tokens : ∀ pieces, IsReading spec pieces → pieces.filter (· ≠ "|") = columns.map (·.token)
  length : columns.length = n

section Readings

variable {spec p q : String} {ps qs pieces : List String} {r r' : List Char}

/-- The characters of a piece: one, or an argument behind the first. -/
theorem piece_cases (h : p = "|" ∨ ColumnToken p) :
    (∃ c ∈ ['|', 'l', 'c', 'r', 'X'], p.toList = [c]) ∨
      (∃ c ∈ ['X', 'Q'], ∃ body, ']' ∉ body ∧ p.toList = c :: '[' :: (body ++ [']'])) ∨
      ∃ body, '\x7d' ∉ body ∧ p.toList = 'p' :: '\x7b' :: (body ++ ['\x7d']) := by
  rcases h with rfl | h
  · exact .inl ⟨'|', by decide, by decide⟩
  · cases h with
    | letter h =>
      simp only [List.mem_cons, List.not_mem_nil, or_false] at h
      rcases h with rfl | rfl | rfl | rfl
      · exact .inl ⟨'l', by decide, by decide⟩
      · exact .inl ⟨'c', by decide, by decide⟩
      · exact .inl ⟨'r', by decide, by decide⟩
      · exact .inl ⟨'X', by decide, by decide⟩
    | weighted h => exact .inr (.inl ⟨'X', by decide, _, h, by simp⟩)
    | keyed h => exact .inr (.inl ⟨'Q', by decide, _, h, by simp⟩)
    | paragraph h => exact .inr (.inr ⟨_, h, by simp⟩)

theorem head?_piece (h : p = "|" ∨ ColumnToken p) : ∃ c cs, p.toList = c :: cs ∧ c ≠ '[' := by
  rcases piece_cases h with ⟨c, hc, hp⟩ | ⟨c, hc, body, -, hp⟩ | ⟨body, -, hp⟩
  · exact ⟨c, [], hp, ne_of_mem_of_not_mem hc (by decide)⟩
  · exact ⟨c, _, hp, ne_of_mem_of_not_mem hc (by decide)⟩
  · exact ⟨'p', _, hp, by decide⟩

theorem head?_pieces (h : ∀ p ∈ ps, p = "|" ∨ ColumnToken p) :
    (ps.flatMap String.toList).head? ≠ some '[' := by
  cases ps with
  | nil => simp
  | cons p ps =>
    obtain ⟨c, cs, hp, hne⟩ := head?_piece (h p List.mem_cons_self)
    simpa [hp] using hne

/-- The piece at the beginning of a text. -/
def nextPiece : List Char → List Char
  | c :: '[' :: cs => c :: '[' :: ((cut ']' cs).1 ++ [']'])
  | 'p' :: '\x7b' :: cs => 'p' :: '\x7b' :: ((cut '\x7d' cs).1 ++ ['\x7d'])
  | c :: _ => [c]
  | [] => []

/-- A piece ends where what follows cannot be its argument. -/
theorem nextPiece_append (hp : p = "|" ∨ ColumnToken p) (hr : r.head? ≠ some '[') :
    nextPiece (p.toList ++ r) = p.toList := by
  rcases piece_cases hp with ⟨c, hc, hp⟩ | ⟨c, -, body, hbody, hp⟩ | ⟨body, hbody, hp⟩
  · have hne : c ≠ 'p' := ne_of_mem_of_not_mem hc (by decide)
    rw [hp]
    cases r with
    | nil => simp [nextPiece]
    | cons d r =>
      have hd : d ≠ '[' := by simpa using hr
      simp [nextPiece, hd, hne]
  · simp [hp, nextPiece, cut_append hbody]
  · simp [hp, nextPiece, cut_append hbody]

theorem pieces_inj (hps : ∀ p ∈ ps, p = "|" ∨ ColumnToken p)
    (hqs : ∀ q ∈ qs, q = "|" ∨ ColumnToken q)
    (h : ps.flatMap String.toList = qs.flatMap String.toList) : ps = qs := by
  induction ps generalizing qs with
  | nil =>
    cases qs with
    | nil => rfl
    | cons q qs =>
      obtain ⟨c, cs, hq, -⟩ := head?_piece (hqs q List.mem_cons_self)
      simp [hq] at h
  | cons p ps ih =>
    obtain ⟨hp, hps⟩ := List.forall_mem_cons.mp hps
    cases qs with
    | nil =>
      obtain ⟨c, cs, hcs, -⟩ := head?_piece hp
      simp [hcs] at h
    | cons q qs =>
      obtain ⟨hq, hqs⟩ := List.forall_mem_cons.mp hqs
      rw [List.flatMap_cons, List.flatMap_cons] at h
      -- both heads are the piece at the beginning of the one text
      have hhead : p.toList = q.toList := by
        rw [← nextPiece_append hp (head?_pieces hps), h, nextPiece_append hq (head?_pieces hqs)]
      rw [hhead] at h
      rw [String.toList_injective hhead, ih hps hqs (List.append_cancel_left h)]

/-- A specification has at most one reading. -/
theorem IsReading.unique (hps : IsReading spec ps) (hqs : IsReading spec qs) : ps = qs := by
  apply pieces_inj hps.piece hqs.piece
  rw [← String.toList_join, ← String.toList_join, hps.joined, hqs.joined]

theorem IsReading.declares {columns : List MappedColumn} (h : IsReading spec pieces)
    (hcolumns : pieces.filter (· ≠ "|") = columns.map (·.token)) :
    Declares spec columns.length columns where
  readable := ⟨pieces, h, fun _ hps => hps.unique h⟩
  tokens := fun _ hps => by rw [hps.unique h, hcolumns]
  length := rfl

end Readings

section Tokens

variable {s : ColumnSpec} {w : String} {specs : ColumnSpecs} {dialect : Dialect}
  {total : Decimal.Binary64} {n : Nat}

theorem columnToken_paragraphToken (h : '\x7d' ∉ w.toList) :
    ColumnToken (ColumnSpec.paragraphToken w) := .paragraph h

/-- An accepted width closes neither brackets nor braces. -/
theorem notMem_of_effectiveWidth {c : Char} (hs : s.Admitted) (hw : s.effectiveWidth? = some w)
    (hc : WidthKind.isWidthChar c = false) : c ∉ w.toList := by
  obtain ⟨htrim, hkind⟩ := hs.effectiveWidth hw
  intro hmem
  have htrue := WidthKind.isWidthChar_of_mem hkind (htrim.symm ▸ hmem)
  rw [hc] at htrue
  cases htrue

theorem notMem_paragraphWidth (h : '\x7d' ∉ w.toList) :
    '\x7d' ∉ (ColumnSpec.paragraphWidth w).toList := by
  unfold ColumnSpec.paragraphWidth
  split
  · simpa using h
  · exact h

theorem notMem_shareWidth (h : '\x7d' ∉ w.toList) :
    '\x7d' ∉ (ColumnSpec.shareWidth w total).toList := by
  have hshare (v : Decimal.Binary64) : '\x7d' ∉ v.shareText.toList := fun hmem =>
    absurd (Decimal.Binary64.isShareChar_of_mem_shareText hmem) (by decide)
  unfold ColumnSpec.shareWidth
  split
  · split
    · simpa using hshare _
    · exact notMem_paragraphWidth h
  · exact notMem_paragraphWidth h

/-- A column with an accepted width is declared by one token. -/
theorem columnToken_mapWith (hs : s.Admitted) : ColumnToken (s.mapWith dialect total).token := by
  rcases s.mapWith_token_cases dialect total with hletter | ⟨w, hw, htoken⟩
  · exact .letter hletter
  · have hbrace : '\x7d' ∉ w.toList := notMem_of_effectiveWidth hs hw (by decide)
    have hbracket : ']' ∉ w.toList := notMem_of_effectiveWidth hs hw (by decide)
    have hkey : ']' ∉ ("wd=" ++ w).toList := by simpa using hbracket
    simp only [ColumnSpec.widthTokens, List.mem_cons, List.not_mem_nil, or_false] at htoken
    rcases htoken with htoken | htoken | htoken | htoken <;> rw [htoken]
    · exact .weighted hbracket
    · exact .keyed hkey
    · exact columnToken_paragraphToken (notMem_paragraphWidth hbrace)
    · exact columnToken_paragraphToken (notMem_shareWidth hbrace)

theorem columnToken_resolve (hs : ∀ s ∈ specs, s.Admitted) :
    ∀ c ∈ specs.resolve dialect n, ColumnToken c.token := by
  intro c hc
  rw [ColumnSpecs.resolve_eq, List.mem_append, List.mem_map] at hc
  rcases hc with ⟨s, hmem, rfl⟩ | hc
  · exact columnToken_mapWith (hs s (List.mem_of_mem_take hmem))
  · rw [List.eq_of_mem_replicate hc]
    exact .letter (by decide)

end Tokens

section Declarations

variable {s : ColumnSpec} {specs : ColumnSpecs} {t : TabularColumns}

theorem ColumnToken.ne_rule {p : String} (h : ColumnToken p) : p ≠ "|" := by
  cases h with
  | letter h => exact ne_of_mem_of_not_mem h (by decide)
  | weighted | keyed | paragraph =>
    intro heq
    simpa using congrArg (fun p => p.toList.head?) heq

/-- The tokens, and a vertical line on both sides of each when lines are drawn. -/
def specPieces (t : TabularColumns) : List String :=
  if t.verticalRules then "|" :: t.columns.flatMap fun c => [c.token, "|"]
  else t.columns.map (·.token)

theorem isReading_specPieces (h : ∀ c ∈ t.columns, ColumnToken c.token) :
    IsReading t.spec (specPieces t) := by
  obtain ⟨columns, verticalRules⟩ := t
  cases verticalRules with
  | false =>
    refine ⟨rfl, fun p hp => ?_⟩
    obtain ⟨c, hc, rfl⟩ := List.mem_map.mp hp
    exact .inr (h c hc)
  | true =>
    constructor
    · apply String.toList_injective
      simp [specPieces, TabularColumns.spec, String.toList_join, List.flatMap_map,
        List.flatMap_assoc]
    · intro p hp
      simp only [specPieces, if_true, List.mem_cons, List.mem_flatMap, List.not_mem_nil,
        or_false] at hp
      rcases hp with rfl | ⟨c, hc, rfl | rfl⟩
      · exact .inl rfl
      · exact .inr (h c hc)
      · exact .inl rfl

theorem filter_specPieces (h : ∀ c ∈ t.columns, c.token ≠ "|") :
    (specPieces t).filter (· ≠ "|") = t.columns.map (·.token) := by
  obtain ⟨columns, verticalRules⟩ := t
  cases verticalRules with
  | false =>
    refine List.filter_eq_self.mpr fun p hp => ?_
    obtain ⟨c, hc, rfl⟩ := List.mem_map.mp hp
    exact decide_eq_true (h c hc)
  | true =>
    change (columns.flatMap fun c => [c.token, "|"]).filter (· ≠ "|") = columns.map (·.token)
    change ∀ c ∈ columns, c.token ≠ "|" at h
    induction columns with
    | nil => rfl
    | cons c columns ih =>
      obtain ⟨hc, hcolumns⟩ := List.forall_mem_cons.mp h
      simpa [hc] using ih hcolumns

theorem spec_declares (h : ∀ c ∈ t.columns, ColumnToken c.token) :
    Declares t.spec t.columns.length t.columns :=
  (isReading_specPieces h).declares (filter_specPieces fun c hc => (h c hc).ne_rule)

/-- The specification of a table has one reading, by which it declares the columns of the table in
order and no other. -/
theorem colspec_declares_columns (hs : ∀ s ∈ specs, s.Admitted) (g : Grid) :
    Declares (tblrColspec g specs) g.cols (specs.resolve .modern g.cols) ∧
      ∀ dialect verticalRules,
        Declares (TabularColumns.spec ⟨specs.resolve dialect g.cols, verticalRules⟩) g.cols
          (specs.resolve dialect g.cols) := by
  have hdeclares (dialect : Dialect) (verticalRules : Bool) :
      Declares (TabularColumns.spec ⟨specs.resolve dialect g.cols, verticalRules⟩) g.cols
        (specs.resolve dialect g.cols) := by
    have h := spec_declares (t := ⟨specs.resolve dialect g.cols, verticalRules⟩)
      (columnToken_resolve hs)
    rwa [ColumnSpecs.length_resolve] at h
  exact ⟨hdeclares .modern false, hdeclares⟩

/-- A column of every kind of token, and one that the registry lacks. -/
theorem colspec_declares_columns_mixed :
    let specs : ColumnSpecs := [⟨.flexibleRatio, none⟩, ⟨.flexibleRatio, some "2"⟩,
      ⟨.flexibleFixed, some "3cm"⟩, ⟨.paragraph, some ".5 \\linewidth"⟩]
    tblrColspec (Grid.blank 1 5) specs = "XX[2]Q[wd=3cm]p\x7b.5 \\linewidth\x7dc" ∧
      Declares (tblrColspec (Grid.blank 1 5) specs) 5 (specs.resolve .modern 5) :=
  ⟨by decide, (colspec_declares_columns (by decide) (Grid.blank 1 5)).1⟩

end Declarations
end LatexTable.Latex
