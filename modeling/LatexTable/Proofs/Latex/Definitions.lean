import LatexTable.Latex.Tblr
import LatexTable.Proofs.Color
import LatexTable.Proofs.Text.Pieces
import Mathlib.Data.List.Nodup
/-!
The definitions of hexadecimal colours. A line is added where a colour is met for the first time, so
that every colour of a visible cell is defined once, however many cells have it, and no other one.
-/
namespace LatexTable.Latex
open Text

variable {g : Grid} {color : Color} {line line' digits : String} {ls seen : List String}

section Fresh

/-- Adds a line that has not been seen. -/
def addFresh (seen : List String) (line : String) : List String :=
  if seen.contains line then seen else seen ++ [line]

theorem mem_addFresh : line ∈ addFresh seen line' ↔ line ∈ seen ∨ line = line' := by
  unfold addFresh
  split
  next hseen =>
    rw [List.contains_iff_mem] at hseen
    constructor
    · exact .inl
    · intro h
      rcases h with h | rfl
      · exact h
      · exact hseen
  next => rw [List.mem_append, List.mem_singleton]

theorem nodup_addFresh (h : seen.Nodup) : (addFresh seen line).Nodup := by
  unfold addFresh
  split
  next => exact h
  next hfresh =>
    rw [List.contains_iff_mem] at hfresh
    refine h.append (List.nodup_singleton line) ?_
    rw [List.disjoint_singleton]
    exact hfresh

theorem mem_foldl_addFresh : line ∈ ls.foldl addFresh seen ↔ line ∈ seen ∨ line ∈ ls := by
  induction ls generalizing seen with
  | nil => simp
  | cons l ls ih => rw [List.foldl_cons, ih, mem_addFresh, List.mem_cons, or_assoc]

theorem nodup_foldl_addFresh (h : seen.Nodup) : (ls.foldl addFresh seen).Nodup := by
  induction ls generalizing seen with
  | nil => exact h
  | cons l ls ih => exact ih (nodup_addFresh h)

end Fresh

/-- The definitions are those of the colours of visible cells. -/
theorem mem_definitions : line ∈ definitions g ↔
    ∃ color, g.HasColor color ∧ color.definition? = some line := by
  have hcell (c : Cell) : line ∈ cellDefinitions c ↔ c.hidden = false ∧
      ∃ color, (c.style.foreground = some color ∨ c.style.background = some color) ∧
        color.definition? = some line := by
    unfold cellDefinitions
    cases c.hidden <;> simp [Option.bind_eq_some_iff, or_and_right, exists_or]
  have hfold : definitions g = (g.rowList.flatten.flatMap cellDefinitions).foldl addFresh [] := rfl
  rw [hfold, mem_foldl_addFresh, List.mem_flatMap]
  constructor
  · intro h
    rcases h with h | ⟨c, hc, h⟩
    · cases h
    · obtain ⟨row, hr, col, hcol, rfl⟩ := Grid.mem_flatten_rowList.mp hc
      obtain ⟨hv, color, hcolor, hline⟩ := (hcell _).mp h
      exact ⟨color, ⟨row, hr, col, hcol, hv, hcolor⟩, hline⟩
  · intro h
    obtain ⟨color, ⟨row, hr, col, hcol, hv, hcolor⟩, hline⟩ := h
    exact .inr ⟨_, Grid.mem_flatten_rowList.mpr ⟨row, hr, col, hcol, rfl⟩,
      (hcell _).mpr ⟨hv, color, hcolor, hline⟩⟩

theorem definitions_nodup (g : Grid) : (definitions g).Nodup := nodup_foldl_addFresh .nil

/-- The line begins with the command that defines a colour. -/
def isDefinition (line : String) : Bool := "\\definecolor".toList.isPrefixOf line.toList

/-- The name that a line defines. -/
def definedName? (line : String) : Option String :=
  (behind? "\\definecolor\x7b".toList line.toList).map fun cs => String.ofList (cut '\x7d' cs).1

theorem take_of_isDefinition (h : isDefinition line = true) : line.toList.take 2 = ['\\', 'd'] := by
  obtain ⟨rest, hrest⟩ := List.isPrefixOf_iff_prefix.mp h
  rw [← hrest]
  rfl

/-- The line that defines a hexadecimal colour. -/
def definition (digits : String) : String :=
  "\\definecolor" ++ braced (Color.html digits).keyName ++ braced "HTML" ++ braced digits

theorem definition?_eq_some :
    color.definition? = some line ↔ ∃ digits, color = .html digits ∧ line = definition digits := by
  have htext (digits : String) : (Color.html digits).definition? = some (definition digits) := by
    apply congrArg some
    apply String.toList_injective
    simp [definition, braced, Color.keyName]
  cases color with
  | named expression => simp [Color.definition?]
  | html digits => simp [htext, eq_comm]

/-- A definition defines the name of its colour. -/
theorem definedName?_definition (h : ∃ s, Color.parse s = .ok (.html digits)) :
    isDefinition (definition digits) = true ∧
      definedName? (definition digits) = some (Color.html digits).keyName := by
  obtain ⟨s, hs⟩ := h
  have hclose : '\x7d' ∉ (Color.html digits).keyName.toList := by
    rw [Color.keyName, String.toList_append, List.mem_append, not_or]
    exact ⟨by decide, fun hmem => absurd (Color.isHexDigit_of_parse hs _ hmem) (by decide)⟩
  have hparts : (definition digits).toList = "\\definecolor\x7b".toList ++
      ((Color.html digits).keyName.toList ++
        '\x7d' :: (braced "HTML" ++ braced digits).toList) := by simp [definition, braced]
  constructor
  · rw [isDefinition, hparts]
    rfl
  · rw [definedName?, hparts, behind?_append, Option.map_some, cut_append hclose,
      String.ofList_toList]

/-- Colours that need a definition have different names. -/
theorem html_keyName_injective : Function.Injective fun digits => (Color.html digits).keyName := by
  intro digits digits' h
  have hchars : ("tgrid" ++ digits).toList = ("tgrid" ++ digits').toList :=
    congrArg String.toList h
  rw [String.toList_append, String.toList_append] at hchars
  exact String.toList_injective (List.append_cancel_left hchars)

/-- Of the definitions one defines the name of a hexadecimal colour. -/
theorem filter_definedName (hcolors : g.ParsedColors) (hcolor : g.HasColor (.html digits)) :
    (definitions g).filter (definedName? · = some (Color.html digits).keyName) =
      [definition digits] := by
  have honly : ∀ line ∈ definitions g,
      definedName? line = some (Color.html digits).keyName ↔ line = definition digits := by
    intro line hline
    obtain ⟨color, hother, hline⟩ := mem_definitions.mp hline
    obtain ⟨digits', rfl, rfl⟩ := definition?_eq_some.mp hline
    rw [(definedName?_definition (hother.parsed hcolors)).2, Option.some.injEq]
    constructor
    · intro hname
      rw [html_keyName_injective hname]
    · intro htext
      have hname := congrArg definedName? htext
      rw [(definedName?_definition (hother.parsed hcolors)).2,
        (definedName?_definition (hcolor.parsed hcolors)).2] at hname
      exact Option.some.inj hname
  have hmem : definition digits ∈ definitions g :=
    mem_definitions.mpr ⟨_, hcolor, definition?_eq_some.mpr ⟨digits, rfl, rfl⟩⟩
  calc (definitions g).filter (definedName? · = some (Color.html digits).keyName)
      = (definitions g).filter (· = definition digits) :=
        List.filter_congr fun line hline => decide_eq_decide.mpr (honly line hline)
    _ = List.replicate ((definitions g).count (definition digits)) (definition digits) :=
        List.filter_eq _
    _ = [definition digits] := by
        rw [List.count_eq_one_of_mem (definitions_nodup g) hmem, List.replicate_one]

end LatexTable.Latex
