import LatexTable.Proofs.Latex.TabularCommands
import LatexTable.Proofs.Latex.TblrReader
/-!
The package commands in a table with a header: its environment, and the definitions of its
hexadecimal colours. Everything else is in keys and plain texts.
-/
namespace LatexTable.Latex
open Text

variable {g : Grid} {o : TableOptions} {c : Cell} {color : Color} {specs : ColumnSpecs}
  {line entry w : String} {row col : Nat}

section Definitions

theorem silent_keyName (h : ∃ s, Color.parse s = .ok color) : Silent color.keyName := by
  cases color with
  | named expression => exact Silent.of_notMem fun hmem => (plain_word h _ hmem).1 rfl
  | html digits =>
    have hdigits : Silent digits := Silent.of_notMem fun hmem => (plain_word h _ hmem).1 rfl
    exact (Silent.of_notMem (by decide)).append hdigits

theorem emits_definition (h : ∃ s, Color.parse s = .ok color)
    (hline : color.definition? = some line) : Emits line (· = "\\definecolor") := by
  obtain ⟨digits, rfl, rfl⟩ := definition?_eq_some.mp hline
  have hdigits : Silent digits := Silent.of_notMem fun hmem => (plain_word h _ hmem).1 rfl
  exact (((emits_command (by decide)).append_silent (silent_keyName h).braced).append_silent
    (Silent.of_notMem (by decide)).braced).append_silent hdigits.braced

theorem emits_definitions (hcolors : g.ParsedColors) :
    Emits (unlines (definitions g)) fun w => definitions g ≠ [] ∧ w = "\\definecolor" := by
  have hline : ∀ line ∈ definitions g, Emits (line ++ "\n") (· = "\\definecolor") := by
    intro line hmem
    obtain ⟨color, hcolor, hdefinition⟩ := mem_definitions.mp hmem
    exact (emits_definition (hcolor.parsed hcolors) hdefinition).append_silent silent_newline
  refine (Emits.join hline).congr fun w _ => ⟨?_, ?_⟩
  · rintro ⟨line, hmem, rfl⟩
    exact ⟨List.ne_nil_of_mem hmem, rfl⟩
  · rintro ⟨hne, rfl⟩
    obtain ⟨line, hmem⟩ := List.exists_mem_of_ne_nil _ hne
    exact ⟨line, hmem, rfl⟩

end Definitions

section Header

theorem silent_styleKeys (h : c.style.ParsedColors) : ∀ key ∈ styleKeys c.style, Silent key := by
  intro key hkey
  simp only [styleKeys, List.mem_append, Option.mem_toList, Option.map_eq_some_iff] at hkey
  rcases hkey with (((⟨halign, -, rfl⟩ | ⟨valign, -, rfl⟩) | ⟨color, hcolor, rfl⟩) |
    ⟨color, hcolor, rfl⟩) | hfont
  · cases halign <;> exact Silent.of_notMem (by decide)
  · cases valign <;> exact Silent.of_notMem (by decide)
  · exact (Silent.of_notMem (by decide)).append (silent_keyName (h.foreground color hcolor))
  · exact (Silent.of_notMem (by decide)).append (silent_keyName (h.background color hcolor))
  · have hface (b : Bool) {command : String} (hcommand : Silent command) :
        Silent (if b then command else "") := by
      cases b
      · exact silent_empty
      · exact hcommand
    rw [List.mem_ite_nil_left, List.mem_singleton] at hfont
    rw [hfont.2]
    exact (Silent.of_notMem (by decide)).append
      ((hface c.style.isBold (silent_plainCommand (by decide))).append
        (hface c.style.isItalic (silent_plainCommand (by decide))))

theorem silent_intercalate {separator : String} {pieces : List String}
    (hs : '\\' ∉ separator.toList) (h : ∀ piece ∈ pieces, Silent piece) :
    Silent (separator.intercalate pieces) := by
  have hpieces := Emits.intercalate (f := id) (Silent.of_notMem hs) h
  rw [List.map_id] at hpieces
  exact hpieces.congr fun _ _ => by simp

theorem silent_spanKeys (c : Cell) : ∀ key ∈ spanKeys c, Silent key := by
  have hkey (name : String) (n : Nat) (h : '\\' ∉ name.toList) : Silent (name ++ toString n) :=
    (Silent.of_notMem h).append (silent_toString n)
  intro key hmem
  simp only [spanKeys, List.mem_append] at hmem
  rcases hmem with hmem | hmem
  · split at hmem
    · rw [List.mem_singleton.mp hmem]
      exact hkey "r=" c.rowSpan (by decide)
    · cases hmem
  · split at hmem
    · rw [List.mem_singleton.mp hmem]
      exact hkey "c=" c.colSpan (by decide)
    · cases hmem

theorem silent_cellEntry (h : c.style.ParsedColors) (he : cellEntry? c row col = some entry) :
    Silent entry := by
  unfold cellEntry? at he
  simp only [Option.ite_none_left_eq_some, Option.some.injEq] at he
  obtain ⟨-, rfl⟩ := he
  have htarget : Silent ("cell" ++ braced (toString (row + 1)) ++ braced (toString (col + 1)) ++
      " = ") :=
    (((Silent.of_notMem (by decide)).append (silent_toString _).braced).append
      (silent_toString _).braced).append (Silent.of_notMem (by decide))
  have hspans : Silent (if c.isSpanning then braced (",".intercalate (spanKeys c)) else "") := by
    split
    · exact (silent_intercalate (by decide) (silent_spanKeys c)).braced
    · exact silent_empty
  exact (htarget.append hspans).append
    (silent_intercalate (by decide) (silent_styleKeys h)).braced

theorem silent_outerKeys (ho : o.Plain) : ∀ key ∈ outerKeys o, Silent key := by
  intro key hkey
  simp only [outerKeys, List.mem_append, Option.mem_toList, Option.map_eq_some_iff] at hkey
  rcases hkey with hkey | ⟨theme, htheme, rfl⟩
  · split at hkey
    · split at hkey
      next caption hcaption =>
        simp only [List.mem_cons, Option.mem_toList, Option.map_eq_some_iff] at hkey
        rcases hkey with rfl | ⟨label, hlabel, rfl⟩
        · exact (Silent.of_notMem (by decide)).append (silent_captionText ho hcaption).braced
        · exact (Silent.of_notMem (by decide)).append (silent_labelText ho hlabel).braced
      next =>
        rcases List.mem_pair.mp hkey with rfl | rfl <;> exact Silent.of_notMem (by decide)
    · cases hkey
  · obtain ⟨text, htext, hname⟩ := Option.bind_eq_some_iff.mp htheme
    exact (Silent.of_notMem (by decide)).append (silent_of_nonBlank (ho.theme text htext) hname)

theorem silent_header (hcolors : g.ParsedColors) (hs : ∀ s ∈ specs, s.Admitted) :
    ∀ entry ∈ tblrHeader g specs o, Silent entry := by
  have hcolspec : Silent (tblrColspec g specs) := Silent.join (silent_resolve hs)
  intro entry hentry
  simp only [tblrHeader, List.mem_cons, List.mem_append] at hentry
  rcases hentry with rfl | (hentry | hentry) | hentry
  · exact (Silent.of_notMem (by decide)).append hcolspec.braced
  · have hkey : entry = "hlines" := by split at hentry <;> simp_all
    exact hkey ▸ Silent.of_notMem (by decide)
  · have hkey : entry = "vlines" := by split at hentry <;> simp_all
    exact hkey ▸ Silent.of_notMem (by decide)
  · obtain ⟨row, col, -, he⟩ := mem_cellEntries.mp hentry
    exact silent_cellEntry (hcolors row col) he

theorem silent_outerSpec (ho : o.Plain) : Silent (outerSpec o) := by
  unfold outerSpec
  split
  · exact silent_empty
  · have hkeys : Silent (",".intercalate (outerKeys o)) :=
      silent_intercalate (by decide) (silent_outerKeys ho)
    exact ((Silent.of_notMem (by decide)).append hkeys).append (Silent.of_notMem (by decide))

/-- The lines in front of the body. -/
def tblrFrame (g : Grid) (specs : ColumnSpecs) (o : TableOptions) : List String :=
  [beginning (tblrEnvironment o) ++ outerSpec o ++ "\x7b",
    "  " ++ ",\n  ".intercalate (tblrHeader g specs o), "\x7d"]

theorem emits_tblrFrame (hcolors : g.ParsedColors) (ho : o.Plain) (hs : ∀ s ∈ specs, s.Admitted) :
    Emits (unlines (tblrFrame g specs o)) (· = beginning (tblrEnvironment o)) := by
  have hmem : beginning (tblrEnvironment o) ∈ packageCommands := by
    unfold tblrEnvironment
    split <;> decide
  have hbegin : Emits (beginning (tblrEnvironment o) ++ outerSpec o ++ "\x7b")
      (· = beginning (tblrEnvironment o)) :=
    ((emits_command hmem).append_silent (silent_outerSpec ho)).append_silent
      (Silent.of_notMem (by decide))
  have hheader : Silent ("  " ++ ",\n  ".intercalate (tblrHeader g specs o)) :=
    (Silent.of_notMem (by decide)).append
      (silent_intercalate (by decide) (silent_header hcolors hs))
  have hclose : Silent "\x7d" := Silent.of_notMem (by decide)
  rw [tblrFrame, ← List.singleton_append, unlines_append, unlines_singleton]
  exact (hbegin.append_silent silent_newline).append_silent
    (silent_unlines (List.forall_mem_cons.mpr ⟨hheader, List.forall_mem_singleton.mpr hclose⟩))

end Header

section Table

theorem silent_bodyLines (hg : g.Plain) : Silent (unlines (g.rowList.map bodyLine)) := by
  have hbody (row col : Nat) : Silent (bodyText (g.cellAt row col)) := by
    unfold bodyText
    split
    · exact silent_empty
    · exact silent_trim (hg row col)
  have hline : ∀ line ∈ g.rowList.map bodyLine, Silent (line ++ "\n") := by
    simp only [Grid.rowList, List.map_map, List.mem_map, Function.comp_apply]
    rintro _ ⟨row, -, rfl⟩
    have htexts : Silent (" & ".intercalate (((List.range g.cols).map (g.cellAt row)).map
        bodyText)) := by
      refine silent_intercalate (by decide) ?_
      simp only [List.map_map, List.mem_map, Function.comp_apply]
      rintro _ ⟨col, -, rfl⟩
      exact hbody row col
    rw [bodyLine, String.append_assoc]
    exact ((Silent.of_notMem (by decide)).append htexts).append silent_rowEnd
  exact Silent.join hline

theorem silent_tblrEnd (ho : o.Plain) :
    Silent (unlines (ending (tblrEnvironment o) :: o.closingLines)) := by
  refine silent_unlines (List.forall_mem_cons.mpr ⟨?_, silent_closingLines ho⟩)
  unfold tblrEnvironment
  split <;> exact silent_ending _ (by decide)

theorem tblrTable_eq (g : Grid) (specs : ColumnSpecs) (o : TableOptions) :
    tblrTable g specs o = trimEnd (unlines (definitions g) ++ (unlines o.openingLines ++
      (unlines (tblrFrame g specs o) ++ unlines (g.rowList.map bodyLine) ++
        unlines (ending (tblrEnvironment o) :: o.closingLines)))) := by
  simp only [← unlines_append]
  simp only [tblrTable, tblrFrame, outerSpec, tblrEnvironment, List.append_assoc,
    List.singleton_append]

theorem contains_tblrTable (hg : g.Plain) (hcolors : g.ParsedColors) (ho : o.Plain)
    (hs : ∀ s ∈ specs, s.Admitted) (hw : Watched w) :
    Contains (tblrTable g specs o) w ↔
      w = beginning (if o.longTable then "longtblr" else "tblr") ∨
        (definitions g ≠ [] ∧ w = "\\definecolor") := by
  have htable := ((emits_tblrFrame hcolors ho hs).append_silent (silent_bodyLines hg)).append_silent
    (silent_tblrEnd ho)
  have hall := (emits_definitions hcolors).append
    ((silent_unlines (silent_openingLines o)).append_emits htable)
  rw [tblrTable_eq, contains_trimEnd hw]
  exact (hall.contains hw).trans or_comm

end Table
end LatexTable.Latex
