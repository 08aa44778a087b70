import LatexTable.Proofs.Column.Resolve
import LatexTable.Proofs.Latex.TblrLines
/-!
Reading a table with a header. The definitions of colours end where the frame begins, the columns
where their group closes, and the entries where the header closes; then come the texts, row by row.
-/
namespace LatexTable.Latex
open Text

variable {g g' : Grid} {R S : Set CellRange} {specs : ColumnSpecs} {o : TableOptions}

def tblrEnvironment (o : TableOptions) : String := if o.longTable then "longtblr" else "tblr"

/-- The outer specification in brackets, if there is one. -/
def outerSpec (o : TableOptions) : String :=
  if (outerKeys o).isEmpty then "" else bracketed (",".intercalate (outerKeys o))

/-- The frame and the header up to the columns. -/
def tblrHead (o : TableOptions) : List Char :=
  lines (o.openingLines.map String.toList) ++
    (beginning (tblrEnvironment o) ++ outerSpec o ++ "\x7b\n  colspec = \x7b").toList

/-- The header of a table behind its columns. -/
def tblrKeys (g : Grid) (o : TableOptions) : List String :=
  (if o.horizontalRules then ["hlines"] else []) ++
    (if o.verticalRules then ["vlines"] else []) ++ cellEntries g

/-- The lines behind the texts. -/
def tblrEnd (o : TableOptions) : List Char :=
  lines ((ending (tblrEnvironment o) :: o.closingLines).map String.toList)

theorem toList_header (g : Grid) (specs : ColumnSpecs) (o : TableOptions) :
    ("  " ++ ",\n  ".intercalate (tblrHeader g specs o)).toList ++ ['\n'] =
      "  colspec = \x7b".toList ++ ((tblrColspec g specs).toList ++ '\x7d' ::
        lines (entryLines [] ((tblrKeys g o).map String.toList))) := by
  have hentries := lines_entryLines [] ((tblrKeys g o).map String.toList) []
  rw [List.append_nil, List.nil_append] at hentries
  have hheader : tblrHeader g specs o =
      ("colspec = " ++ braced (tblrColspec g specs)) :: tblrKeys g o := rfl
  rw [hheader, hentries, String.toList_append, String.toList_intercalate, List.map_cons,
    intercalate_cons]
  simp [braced]

/-- A trimmed table keeps everything up to the end of its texts. -/
theorem toList_tblrTable (g : Grid) (specs : ColumnSpecs) (o : TableOptions) :
    (tblrTable g specs o).toList = lines ((definitions g).map String.toList) ++
      (tblrHead o ++ ((tblrColspec g specs).toList ++ '\x7d' ::
        (lines (entryLines [] ((tblrKeys g o).map String.toList)) ++ '\x7d' :: '\n' ::
          (lines ((g.rowList.map bodyLine).map String.toList) ++
            dropEndWhile isBlank (tblrEnd o))))) := by
  have hmark : ∃ c ∈ tblrEnd o, isBlank c = false :=
    ⟨'\\', by simp [tblrEnd, ending], by decide⟩
  have htable : tblrTable g specs o = trimEnd (unlines (definitions g ++ o.openingLines ++
      [beginning (tblrEnvironment o) ++ outerSpec o ++ "\x7b",
        "  " ++ ",\n  ".intercalate (tblrHeader g specs o), "\x7d"] ++
      g.rowList.map bodyLine ++ [ending (tblrEnvironment o)] ++ o.closingLines)) := rfl
  have hlines (header : String) :
      lines ((definitions g ++ o.openingLines ++
        [beginning (tblrEnvironment o) ++ outerSpec o ++ "\x7b", header, "\x7d"] ++
        g.rowList.map bodyLine ++ [ending (tblrEnvironment o)] ++ o.closingLines).map
          String.toList) =
      (lines ((definitions g).map String.toList) ++ (lines (o.openingLines.map String.toList) ++
        ((beginning (tblrEnvironment o) ++ outerSpec o ++ "\x7b\n").toList ++
          ((header.toList ++ ['\n']) ++ '\x7d' :: '\n' ::
            lines ((g.rowList.map bodyLine).map String.toList))))) ++ tblrEnd o := by
    simp [tblrEnd]
  rw [htable, trimEnd, String.toList_ofList, toList_unlines, hlines, dropEndWhile_append hmark,
    toList_header]
  simp [tblrHead]

/-- The frame does not begin with the definition of a colour. -/
theorem tblrHead_ne (l tail rest : List Char) (hl : Defines l) :
    tblrHead o ++ rest ≠ l ++ '\n' :: tail := by
  obtain ⟨cs, rfl⟩ := hl
  have hframe : ∃ ds, tblrHead o = '\\' :: 'b' :: ds := by
    unfold tblrHead TableOptions.openingLines
    split
    · simp [beginning]
    · split
      · simp [beginning]
      · split <;> simp [beginning]
  obtain ⟨ds, hds⟩ := hframe
  simp [hds]

/-- The specification of the columns tells their number. -/
theorem tblrColspec_inj {rest rest' : List Char}
    (h : (tblrColspec g specs).toList ++ '\x7d' :: rest =
      (tblrColspec g' specs).toList ++ '\x7d' :: rest') : g.cols = g'.cols ∧ rest = rest' := by
  apply ColumnSpecs.resolve_inj ""
  simpa [tblrColspec] using h

theorem notMem_tblrKeys (hw : g.Writable) :
    ∀ e ∈ (tblrKeys g o).map String.toList, '\n' ∉ e := by
  intro e he
  obtain ⟨key, hkey, rfl⟩ := List.mem_map.mp he
  simp only [tblrKeys, List.mem_append] at hkey
  rcases hkey with (hkey | hkey) | hkey
  · split at hkey
    · rw [List.mem_singleton.mp hkey]
      decide
    · cases hkey
  · split at hkey
    · rw [List.mem_singleton.mp hkey]
      decide
    · cases hkey
  · obtain ⟨row, col, -, he⟩ := mem_cellEntries.mp hkey
    exact notMem_cellEntry (hw row col) he

/-- The end of the header is no line of an entry. -/
theorem close_ne (rest l tail : List Char) (hl : l.head? ≠ some '\x7d') :
    '\x7d' :: rest ≠ l ++ '\n' :: tail := by
  cases l with
  | nil => simp
  | cons d ds =>
    intro h
    exact hl (congrArg some (List.cons.inj h).1.symm)

/-- Equal tables have as many columns, the same entries and the same lines of texts. -/
theorem tblrTable_inj (hw : g.Writable) (hw' : g'.Writable)
    (heq : tblrTable g specs o = tblrTable g' specs o) : g.cols = g'.cols ∧
      cellEntries g = cellEntries g' ∧ g.rowList.map bodyLine = g'.rowList.map bodyLine := by
  have hdefinitions {g : Grid} (hw : g.Writable) :
      ∀ l ∈ (definitions g).map String.toList, Defines l ∧ '\n' ∉ l := by
    intro l hl
    obtain ⟨line, hline, rfl⟩ := List.mem_map.mp hl
    exact defines_of_mem hw hline
  have hentries {g : Grid} (hw : g.Writable) :
      ∀ l ∈ entryLines [] ((tblrKeys g o).map String.toList),
        l.head? ≠ some '\x7d' ∧ '\n' ∉ l :=
    mem_entryLines (by simp) (by simp) (notMem_tblrKeys hw)
  have hchars := congrArg String.toList heq
  rw [toList_tblrTable, toList_tblrTable] at hchars
  obtain ⟨-, hframe⟩ := lines_append_inj (fun l tail => tblrHead_ne l tail _)
    (fun l tail => tblrHead_ne l tail _) (hdefinitions hw) (hdefinitions hw') hchars
  obtain ⟨hcols, hheader⟩ := tblrColspec_inj (List.append_cancel_left hframe)
  obtain ⟨hentry, hbody⟩ := lines_append_inj (close_ne _) (close_ne _) (hentries hw)
    (hentries hw') hheader
  have hlines := List.append_cancel_right (List.cons.inj (List.cons.inj hbody).2).2
  refine ⟨hcols, List.append_cancel_left (map_toList_injective (entryLines_inj hentry).2), ?_⟩
  exact map_toList_injective (lines_inj (notMem_bodyLines hw) (notMem_bodyLines hw') hlines)

/-- Equal tables come from grids that are alike. -/
theorem alike_of_tblrTable (h : g.Layout R) (h' : g'.Layout S) (hw : g.Writable)
    (hw' : g'.Writable) (heq : tblrTable g specs o = tblrTable g' specs o) : g.Alike g' R S := by
  obtain ⟨hcols, hentries, hbody⟩ := tblrTable_inj hw hw' heq
  obtain ⟨hrows, htexts⟩ := bodyText_inj hw hw' (h.pos .column) hcols hbody
  obtain rfl : R = S := Set.Subset.antisymm (subset_of_cellEntries h h' hw hw' hentries)
    (subset_of_cellEntries h' h hw' hw hentries.symm)
  refine ⟨hrows, hcols, rfl, fun row hr col hc hv => ?_⟩
  have hv' : (g'.cellAt row col).hidden = false := (h.hidden_eq_of_same h').symm.trans hv
  have htext := congrArg String.toList (htexts row hr col hc)
  simpa [bodyText, hv, hv'] using htext

end LatexTable.Latex
