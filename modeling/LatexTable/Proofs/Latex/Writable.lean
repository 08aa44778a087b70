import LatexTable.Proofs.Color
/-!
Cells whose text and colours cannot be taken for the source around them: the text holds no
character of the grammar, and the colours are ones that have been parsed.
-/
namespace LatexTable
open Text

/-- The cell has a text without characters of the grammar, and parsed colours. -/
structure Cell.Writable (c : Cell) : Prop where
  text : ∀ d ∈ ['\\', '\x7b', '\x7d', '&', '\n'], d ∉ c.text.toList
  foreground : ∀ color, c.style.foreground = some color → ∃ s, Color.parse s = .ok color
  background : ∀ color, c.style.background = some color → ∃ s, Color.parse s = .ok color

namespace Cell.Writable

variable {c : Cell} {d : Char} {color : Color}

theorem parsedColors (h : c.Writable) : c.style.ParsedColors := ⟨h.foreground, h.background⟩

theorem notMem_text (h : c.Writable) (hd : d ∈ ['\\', '\x7b', '\x7d', '&', '\n']) :
    d ∉ trimmed c.text.toList := fun hmem => h.text d hd (trimmed_subset hmem)

theorem notMem_foreground (h : c.Writable) (hc : c.style.foreground = some color)
    (hd : Color.isColorChar d = false) : d ∉ color.word.toList := by
  obtain ⟨s, hs⟩ := h.foreground color hc
  intro hmem
  rw [Color.isColorChar_of_parse hs d hmem] at hd
  contradiction

theorem notMem_background (h : c.Writable) (hc : c.style.background = some color)
    (hd : Color.isColorChar d = false) : d ∉ color.word.toList := by
  obtain ⟨s, hs⟩ := h.background color hc
  intro hmem
  rw [Color.isColorChar_of_parse hs d hmem] at hd
  contradiction

end Cell.Writable

/-- All cells are writable. -/
def Grid.Writable (g : Grid) : Prop := ∀ row col, (g.cellAt row col).Writable

end LatexTable
