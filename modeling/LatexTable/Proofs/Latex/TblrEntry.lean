import LatexTable.Latex.Tblr
import LatexTable.Proofs.Latex.Writable
import LatexTable.Proofs.Text.Pieces
/-!
The header entries of cells: an entry tells the place of its cell, and how many rows and columns the
cell spans.
-/
namespace LatexTable.Latex
open Text

variable {c : Cell} {style : CellStyle} {d : Char} {color : Color} {row col : Nat}
  {entry key : String}

theorem notMem_keyName (hword : d ∉ color.word.toList) (hmark : d ∉ "tgrid".toList) :
    d ∉ color.keyName.toList := by
  cases color with
  | named expression => exact hword
  | html digits =>
    simp only [Color.keyName, String.toList_append, List.mem_append, not_or]
    exact ⟨hmark, hword⟩

/-- A key of a style holds no character that ends a key, a group or a line. -/
theorem notMem_styleKey (h : style.ParsedColors) (hkey : key ∈ styleKeys style)
    (hd : d ∈ [',', '\x7b', '\x7d', '\n']) : d ∉ key.toList := by
  simp only [List.mem_cons, List.not_mem_nil, or_false] at hd
  have hmarks : Color.isColorChar d = false ∧ d ∉ "tgrid".toList ∧ d ∉ "fg=".toList ∧
      d ∉ "bg=".toList := by
    rcases hd with rfl | rfl | rfl | rfl <;> decide
  have hname {color : Color} (hparsed : ∃ s, Color.parse s = .ok color) :
      d ∉ color.keyName.toList := by
    obtain ⟨s, hs⟩ := hparsed
    refine notMem_keyName (fun hmem => ?_) hmarks.2.1
    exact absurd (Color.isColorChar_of_parse hs d hmem) (by simp [hmarks.1])
  simp only [styleKeys, List.mem_append, Option.mem_toList, Option.map_eq_some_iff] at hkey
  rcases hkey with (((⟨halign, -, rfl⟩ | ⟨valign, -, rfl⟩) | ⟨color, hcolor, rfl⟩) |
    ⟨color, hcolor, rfl⟩) | hfont
  · rcases hd with rfl | rfl | rfl | rfl <;> cases halign <;> decide
  · rcases hd with rfl | rfl | rfl | rfl <;> cases valign <;> decide
  · rw [String.toList_append, List.mem_append, not_or]
    exact ⟨hmarks.2.2.1, hname (h.foreground color hcolor)⟩
  · rw [String.toList_append, List.mem_append, not_or]
    exact ⟨hmarks.2.2.2, hname (h.background color hcolor)⟩
  · have hfonts : key = "font=\\bfseries" ∨ key = "font=\\itshape" ∨
        key = "font=\\bfseries\\itshape" := by
      revert hfont
      cases style.isBold <;> cases style.isItalic <;> simp +contextual
    rcases hd with rfl | rfl | rfl | rfl <;> rcases hfonts with rfl | rfl | rfl <;> decide

/-- The keys of a style end neither a line nor a group. -/
theorem notMem_styleKeys (h : c.style.ParsedColors) (hd : d ∈ ['\n', '\x7d']) :
    d ∉ [','].intercalate ((styleKeys c.style).map String.toList) := by
  have hends : d ∉ [','] ∧ d ∈ [',', '\x7b', '\x7d', '\n'] := by
    rcases List.mem_pair.mp hd with rfl | rfl <;> decide
  apply notMem_intercalate hends.1
  intro p hp
  obtain ⟨key, hkey, rfl⟩ := List.mem_map.mp hp
  exact notMem_styleKey h hkey hends.2

/-- The keys of the spans, as characters. -/
theorem toList_spanKeys (c : Cell) : (spanKeys c).map String.toList =
    (if 1 < c.rowSpan then ['r' :: '=' :: digits c.rowSpan] else []) ++
      (if 1 < c.colSpan then ['c' :: '=' :: digits c.colSpan] else []) := by
  have hrows : toString "r=" = "r=" := rfl
  have hcolumns : toString "c=" = "c=" := rfl
  unfold spanKeys
  split <;> split <;> simp [digits, hrows, hcolumns]

theorem notMem_spanKey {p : List Char} (hp : p ∈ (spanKeys c).map String.toList)
    (hd : d ∈ ['\n', '\x7d', ',']) : d ∉ p := by
  have hmark : d ≠ 'r' ∧ d ≠ 'c' ∧ d ≠ '=' ∧ d.isDigit = false := by
    simp only [List.mem_cons, List.not_mem_nil, or_false] at hd
    rcases hd with rfl | rfl | rfl <;> decide
  have hdigits (n : Nat) : d ∉ digits n := notMem_digits n hmark.2.2.2
  rw [toList_spanKeys, List.mem_append] at hp
  rcases hp with hp | hp
  · split at hp
    · rw [List.mem_singleton.mp hp]
      simp [hmark, hdigits]
    · cases hp
  · split at hp
    · rw [List.mem_singleton.mp hp]
      simp [hmark, hdigits]
    · cases hp

theorem spanKeys_ne_nil (h : c.isSpanning = true) : (spanKeys c).map String.toList ≠ [] := by
  rw [Cell.isSpanning, Bool.or_eq_true, decide_eq_true_eq, decide_eq_true_eq] at h
  rw [toList_spanKeys]
  rcases h with h | h <;> simp [h]

/-- What an entry says of its cell: the spans if there are some, and the style. -/
def groups (c : Cell) : List Char :=
  let style := '\x7b' :: ([','].intercalate ((styleKeys c.style).map String.toList) ++ ['\x7d'])
  if c.isSpanning then
    '\x7b' :: ([','].intercalate ((spanKeys c).map String.toList) ++ '\x7d' :: style)
  else style

theorem cellEntry_eq_some (h : cellEntry? c row col = some entry) :
    c.hidden = false ∧ entry.toList = "cell\x7b".toList ++ (digits (row + 1) ++ '\x7d' :: '\x7b' ::
      (digits (col + 1) ++ '\x7d' :: (" = ".toList ++ groups c))) := by
  unfold cellEntry? at h
  simp only [Option.ite_none_left_eq_some, Option.some.injEq, Bool.or_eq_true,
    not_or, Bool.not_eq_true] at h
  obtain ⟨⟨hv, -⟩, rfl⟩ := h
  refine ⟨hv, ?_⟩
  unfold groups
  dsimp only
  split <;> simp [braced, digits]

theorem exists_cellEntry (row col : Nat) (h : c.isMaster = true) :
    ∃ entry, cellEntry? c row col = some entry := by
  rw [Cell.isMaster, Bool.and_eq_true, Bool.not_eq_true'] at h
  unfold cellEntry?
  simp [h.1, h.2]

/-- No entry runs over the end of a line. -/
theorem notMem_cellEntry (h : c.Writable) (he : cellEntry? c row col = some entry) :
    '\n' ∉ entry.toList := by
  have hdigits (n : Nat) : '\n' ∉ digits n := notMem_digits n (by decide)
  have hstyle := notMem_styleKeys h.parsedColors (d := '\n') (by simp)
  have hspans : '\n' ∉ [','].intercalate ((spanKeys c).map String.toList) :=
    notMem_intercalate (by simp) fun p hp => notMem_spanKey hp (by simp)
  have hgroups : '\n' ∉ groups c := by
    unfold groups
    dsimp only
    split <;> simp [hstyle, hspans]
  rw [(cellEntry_eq_some he).2]
  simp [hdigits, hgroups]

end LatexTable.Latex
