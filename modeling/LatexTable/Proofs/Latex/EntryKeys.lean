import LatexTable.Proofs.Latex.TblrCommands
/-!
The colours in the header entries of cells. The keys of a style are in the last group of an entry,
and a colour stands there under its name: as it is, or under the name of its definition.
-/
namespace LatexTable.Latex
open Text

/-- The entry has a key for a foreground or a background with the name. -/
def Tinted (entry name : String) : Prop :=
  "fg=" ++ name ∈ entryKeys entry ∨ "bg=" ++ name ∈ entryKeys entry

variable {g : Grid} {c : Cell} {style : CellStyle} {color color' : Color} {row col : Nat}
  {entry key name digits : String}

section Keys

theorem mem_entryKeys (h : c.style.ParsedColors) (he : cellEntry? c row col = some entry)
    (hkey : key ≠ "") : key ∈ entryKeys entry ↔ key ∈ styleKeys c.style := by
  rw [entryKeys_cellEntry h he]
  split
  next hnil => simp [hnil, hkey]
  next => rfl

theorem tint_mem_styleKeys {mark : String} (hmark : mark = "fg=" ∨ mark = "bg=") :
    mark ++ name ∈ styleKeys style ↔ ∃ color, (mark = "fg=" ∧ style.foreground = some color ∨
      mark = "bg=" ∧ style.background = some color) ∧ color.keyName = name := by
  have happart {first rest : String} (hfirst : first ∈ ["halign=", "valign=", "font="]) :
      first ++ rest ≠ mark ++ name := by
    intro h
    have htwo := congrArg (fun s => s.toList.take 2) h
    simp only [List.mem_cons, List.not_mem_nil, or_false] at hfirst
    rcases hmark with rfl | rfl <;> rcases hfirst with rfl | rfl | rfl <;>
      simp at htwo
  have hnames {mark' name' : String} (hmark' : mark' = "fg=" ∨ mark' = "bg=") :
      mark' ++ name' = mark ++ name ↔ mark' = mark ∧ name' = name := by
    rcases hmark with rfl | rfl <;> rcases hmark' with rfl | rfl <;>
      simp [← String.toList_inj]
  simp only [styleKeys, List.mem_append, Option.mem_toList, Option.map_eq_some_iff]
  constructor
  · rintro ((((⟨halign, -, hkey⟩ | ⟨valign, -, hkey⟩) | ⟨color, hcolor, hkey⟩) |
      ⟨color, hcolor, hkey⟩) | hfont)
    · exact absurd hkey (happart (by simp))
    · exact absurd hkey (happart (by simp))
    · obtain ⟨rfl, rfl⟩ := (hnames (.inl rfl)).mp hkey
      exact ⟨color, .inl ⟨rfl, hcolor⟩, rfl⟩
    · obtain ⟨rfl, rfl⟩ := (hnames (.inr rfl)).mp hkey
      exact ⟨color, .inr ⟨rfl, hcolor⟩, rfl⟩
    · rw [List.mem_ite_nil_left, List.mem_singleton] at hfont
      exact absurd hfont.2.symm (happart (by simp))
  · rintro ⟨color, ⟨rfl, hcolor⟩ | ⟨rfl, hcolor⟩, rfl⟩
    · exact .inl (.inl (.inr ⟨color, hcolor, rfl⟩))
    · exact .inl (.inr ⟨color, hcolor, rfl⟩)

/-- A colour that is named in an entry is one of its cell. -/
theorem exists_color_of_tinted (hcolors : g.ParsedColors) (hentry : entry ∈ cellEntries g)
    (htinted : Tinted entry name) : ∃ color, g.HasColor color ∧ color.keyName = name := by
  obtain ⟨row, col, ⟨hr, hc⟩, he⟩ := mem_cellEntries.mp hentry
  have hv := (cellEntry_eq_some he).1
  have hstyle := hcolors row col
  rw [Tinted, mem_entryKeys hstyle he (by simp), mem_entryKeys hstyle he (by simp),
    tint_mem_styleKeys (.inl rfl), tint_mem_styleKeys (.inr rfl)] at htinted
  rcases htinted with ⟨color, hcolor, hname⟩ | ⟨color, hcolor, hname⟩
  · exact ⟨color, ⟨row, hr, col, hc, hv, .inl (by simpa using hcolor)⟩, hname⟩
  · exact ⟨color, ⟨row, hr, col, hc, hv, .inr (by simpa using hcolor)⟩, hname⟩

end Keys

section Names

/-- The name of a definition is not one that an option of the colour package defines. -/
theorem eq_of_keyName (hname : color.needsDvipsNames = true)
    (h : ∃ s, Color.parse s = .ok color') (heq : color'.keyName = color.keyName) :
    color' = color := by
  cases color with
  | html digits => simp [Color.needsDvipsNames, Color.baseNames] at hname
  | named expression =>
    cases color' with
    | named expression' => exact congrArg Color.named heq
    | html digits =>
      obtain ⟨s, hs⟩ := h
      have hwhole : '!' ∉ ("tgrid" ++ digits).toList := by
        rw [String.toList_append, List.mem_append, not_or]
        exact ⟨by decide, fun hmem => absurd (Color.isHexDigit_of_parse hs _ hmem) (by decide)⟩
      have hother : ∀ name ∈ Color.dvipsNames, name.toList.head? ≠ some 't' := by decide
      obtain rfl : "tgrid" ++ digits = expression := heq
      simp only [Color.needsDvipsNames, Color.baseNames, List.any_eq_true, List.mem_map,
        List.mem_filter, splitAt_of_notMem hwhole, List.mem_singleton] at hname
      obtain ⟨_, ⟨_, ⟨rfl, -⟩, rfl⟩, hdvips⟩ := hname
      rw [List.contains_iff_mem, String.ofList_toList] at hdvips
      exact absurd (by simp) (hother _ hdvips)

end Names
end LatexTable.Latex
