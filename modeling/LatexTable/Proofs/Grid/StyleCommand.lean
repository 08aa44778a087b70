import LatexTable.Proofs.Grid.Owner
import LatexTable.Proofs.Grid.Reachable
import LatexTable.Proofs.Guarded.Cells
/-!
Style commands. A command sets one part of a style, or all of them, to values that it names itself
or takes from the focused cell, so the visible cells of a rectangle agree in them afterwards and
nothing else of the grid changes. A toggle that reads a cell of its own rectangle switches it, and
with it all the others.
-/
namespace LatexTable
open Result

/-- The parts of a style. -/
inductive StylePart where
  | bold | italic | halign | valign | foreground | background
  deriving DecidableEq, Repr

/-- What a part of a style holds. -/
def StylePart.Value : StylePart → Type
  | .bold | .italic => Option Bool
  | .halign => Option HAlign
  | .valign => Option VAlign
  | .foreground | .background => Option Color

/-- The emphases of a text, each of which is switched on and off. -/
inductive Emphasis where
  | bold | italic
  deriving DecidableEq, Repr

namespace CellStyle

variable {s t : CellStyle}

def part (s : CellStyle) : (p : StylePart) → p.Value
  | .bold => s.bold
  | .italic => s.italic
  | .halign => s.halign
  | .valign => s.valign
  | .foreground => s.foreground
  | .background => s.background

theorem ext_part (h : ∀ p, s.part p = t.part p) : s = t := by
  cases s
  cases t
  rw [CellStyle.mk.injEq]
  exact ⟨h .bold, h .italic, h .halign, h .valign, h .foreground, h .background⟩

/-- Whether an emphasis is on; it is off when it is not set. -/
def isOn (s : CellStyle) : Emphasis → Bool
  | .bold => s.isBold
  | .italic => s.isItalic

end CellStyle

def Emphasis.toggle : Emphasis → StyleCommand
  | .bold => .toggleBold
  | .italic => .toggleItalic

namespace StyleCommand

variable {command : StyleCommand} {focused style : CellStyle} {p : StylePart} {e : Emphasis}

/-- The parts that a command sets. -/
def parts : StyleCommand → List StylePart
  | .toggleBold => [.bold]
  | .toggleItalic => [.italic]
  | .halign _ => [.halign]
  | .valign _ => [.valign]
  | .foreground _ => [.foreground]
  | .background _ => [.background]
  | .clear => [.bold, .italic, .halign, .valign, .foreground, .background]

/-- A style with the values that a command gives, unset in the parts that it leaves alone. -/
def target (command : StyleCommand) (focused : CellStyle) : CellStyle :=
  match command with
  | .toggleBold => { bold := some (!focused.isBold) }
  | .toggleItalic => { italic := some (!focused.isItalic) }
  | .halign value => { halign := value }
  | .valign value => { valign := value }
  | .foreground value => { foreground := value }
  | .background value => { background := value }
  | .clear => {}

theorem part_apply_of_mem (h : p ∈ command.parts) :
    (command.apply focused style).part p = (command.target focused).part p := by
  cases command <;> simp only [parts, List.mem_cons, List.not_mem_nil, or_false] at h
  case clear => rfl
  all_goals subst h; rfl

theorem part_apply_of_notMem (h : p ∉ command.parts) :
    (command.apply focused style).part p = style.part p := by
  cases command <;> cases p <;> first | rfl | simp [parts] at h

/-- What a toggle gives depends on the emphasis of the focused cell only. -/
theorem target_toggle {focused' : CellStyle} (h : focused.isOn e = focused'.isOn e) :
    e.toggle.target focused = e.toggle.target focused' := by
  cases e
  · exact congrArg (fun b => ({ bold := some (!b) } : CellStyle)) h
  · exact congrArg (fun b => ({ italic := some (!b) } : CellStyle)) h

theorem isOn_of_part (h : ∀ p ∈ e.toggle.parts, style.part p = (e.toggle.target focused).part p) :
    style.isOn e = !focused.isOn e := by
  cases e
  · have hbold : style.bold = some (!focused.isBold) := h .bold List.mem_cons_self
    rw [CellStyle.isOn, CellStyle.isBold, hbold]
    rfl
  · have hitalic : style.italic = some (!focused.isItalic) := h .italic List.mem_cons_self
    rw [CellStyle.isOn, CellStyle.isItalic, hitalic]
    rfl

end StyleCommand

namespace Grid

variable {g g' g'' : Grid} {r : CellRange} {row col focusRow focusCol : Nat}
  {command : StyleCommand} {focused focused' : CellStyle} {e : Emphasis}

/-- The places of the visible cells of a rectangle. -/
def visibleIn (g : Grid) (r : CellRange) : List (Nat × Nat) :=
  g.places.filter fun (row, col) => r.contains row col && !(g.cellAt row col).hidden

theorem mem_visibleIn : (row, col) ∈ g.visibleIn r ↔
    (row < g.rows ∧ col < g.cols) ∧ r.contains row col = true ∧
      (g.cellAt row col).hidden = false := by
  simp [visibleIn, mem_places]

/-- What a style command makes of a grid, `focused` being the style that the toggles read. -/
structure Restyled (g : Grid) (r : CellRange) (command : StyleCommand) (focused : CellStyle)
    (g' : Grid) : Prop where
  full : g'.Full
  rows : g'.rows = g.rows
  cols : g'.cols = g.cols
  text : ∀ row col, (g'.cellAt row col).text = (g.cellAt row col).text
  span : ∀ row col axis, (g'.cellAt row col).span axis = (g.cellAt row col).span axis
  hidden : ∀ row col, (g'.cellAt row col).hidden = (g.cellAt row col).hidden
  /-- The visible cells of the rectangle agree in what the command sets. -/
  assigned : ∀ row col, (row, col) ∈ g.visibleIn r → ∀ p ∈ command.parts,
    (g'.cellAt row col).style.part p = (command.target focused).part p
  kept : ∀ row col, ∀ p ∉ command.parts,
    (g'.cellAt row col).style.part p = (g.cellAt row col).style.part p
  others : ∀ row col, (row, col) ∉ g.visibleIn r → g'.cellAt row col = g.cellAt row col

namespace Restyled

theorem visibleIn_eq (h : Restyled g r command focused g') : g'.visibleIn r = g.visibleIn r := by
  simp only [visibleIn, places, h.rows, h.cols, h.hidden]

theorem unique (h : Restyled g r command focused g') (h' : Restyled g r command focused g'') :
    g' = g'' := by
  refine h.full.ext h'.full (h.rows.trans h'.rows.symm) (h.cols.trans h'.cols.symm)
    fun row col _ _ => ?_
  have htext := (h.text row col).trans (h'.text row col).symm
  have hspan (axis : Axis) := (h.span row col axis).trans (h'.span row col axis).symm
  have hhidden := (h.hidden row col).trans (h'.hidden row col).symm
  by_cases hin : (row, col) ∈ g.visibleIn r
  · refine Cell.ext_span htext hspan hhidden (CellStyle.ext_part fun p => ?_)
    by_cases hp : p ∈ command.parts
    · rw [h.assigned row col hin p hp, h'.assigned row col hin p hp]
    · rw [h.kept row col p hp, h'.kept row col p hp]
  · rw [h.others row col hin, h'.others row col hin]

/-- Of two commands that set the same parts, the second decides. -/
theorem trans {command' : StyleCommand} (h : Restyled g r command focused g')
    (h' : Restyled g' r command' focused' g'') (hparts : command.parts = command'.parts) :
    Restyled g r command' focused' g'' where
  full := h'.full
  rows := h'.rows.trans h.rows
  cols := h'.cols.trans h.cols
  text := fun row col => (h'.text row col).trans (h.text row col)
  span := fun row col axis => (h'.span row col axis).trans (h.span row col axis)
  hidden := fun row col => (h'.hidden row col).trans (h.hidden row col)
  assigned := fun row col hin => h'.assigned row col (h.visibleIn_eq ▸ hin)
  kept := fun row col p hp =>
    (h'.kept row col p hp).trans (h.kept row col p (hparts ▸ hp))
  others := fun row col hin =>
    (h'.others row col (h.visibleIn_eq ▸ hin)).trans (h.others row col hin)

theorem of_target_eq (h : Restyled g r command focused g')
    (ht : command.target focused = command.target focused') :
    Restyled g r command focused' g' :=
  { h with assigned := fun row col hin p hp => ht ▸ h.assigned row col hin p hp }

/-- A toggle switches the cells of its rectangle by the emphasis of the focused cell. -/
theorem isOn (h : Restyled g r e.toggle focused g') (hin : (row, col) ∈ g.visibleIn r) :
    (g'.cellAt row col).style.isOn e = !focused.isOn e :=
  StyleCommand.isOn_of_part (h.assigned row col hin)

end Restyled

/-- The grid with a style command carried out. -/
def commanded (g : Grid) (r : CellRange) (command : StyleCommand) (focused : CellStyle) : Grid :=
  tabulate g.rows g.cols fun row col =>
    if r.contains row col then
      (g.cellAt row col).update fun content =>
        { content with style := command.apply focused content.style }
    else g.cellAt row col

theorem cellAt_commanded (row col : Nat) :
    (g.commanded r command focused).cellAt row col =
      if (row, col) ∈ g.visibleIn r then
        { g.cellAt row col with style := command.apply focused (g.cellAt row col).style }
      else g.cellAt row col := by
  by_cases hplace : row < g.rows ∧ col < g.cols
  · rw [commanded, cellAt_tabulate hplace.1 hplace.2]
    simp only [mem_visibleIn, hplace, and_self, true_and, Cell.update]
    cases r.contains row col <;> cases hh : (g.cellAt row col).hidden <;> simp [Cell.content]
  · rw [cellAt_of_not_lt (g := g.commanded r command focused) hplace,
      if_neg fun hin => hplace (mem_visibleIn.mp hin).1, cellAt_of_not_lt hplace]

theorem restyled_commanded : Restyled g r command focused (g.commanded r command focused) where
  full := tabulate_full ..
  rows := rfl
  cols := rfl
  text := by
    intro row col
    rw [cellAt_commanded]
    split <;> rfl
  span := by
    intro row col axis
    rw [cellAt_commanded]
    split
    · cases axis <;> rfl
    · rfl
  hidden := by
    intro row col
    rw [cellAt_commanded]
    split <;> rfl
  assigned := by
    intro row col hin p hp
    rw [cellAt_commanded, if_pos hin]
    exact StyleCommand.part_apply_of_mem hp
  kept := by
    intro row col p hp
    rw [cellAt_commanded]
    split
    · exact StyleCommand.part_apply_of_notMem hp
    · rfl
  others := fun row col hin => by rw [cellAt_commanded, if_neg hin]

/-- The visible cells among the cells of a rectangle in the grid. -/
theorem countP_visible (hord : r.Ordered) (hin : r.maxRow < g.rows ∧ r.maxCol < g.cols) :
    (r.cells.countP fun (row, col) => !(g.cellAt row col).hidden) = (g.visibleIn r).length := by
  have hperm : r.cells.Perm (g.places.filter fun (row, col) => r.contains row col) := by
    rw [List.perm_ext_iff_of_nodup r.cells_nodup (g.places_nodup.filter _)]
    rintro ⟨row, col⟩
    rw [CellRange.mem_cells hord, List.mem_filter, mem_places]
    refine ⟨fun hc => ⟨?_, hc⟩, And.right⟩
    obtain ⟨⟨-, hrow⟩, -, hcol⟩ := CellRange.contains_iff.mp hc
    exact ⟨hrow.trans_lt hin.1, hcol.trans_lt hin.2⟩
  rw [hperm.countP_eq, List.countP_filter, List.countP_eq_length_filter, visibleIn]
  exact congrArg List.length (List.filter_congr fun _ _ => Bool.and_comm _ _)

/-- A style command in the grid succeeds, and counts the visible cells of its rectangle. -/
theorem applyStyle_of_lt (command : StyleCommand) (hord : r.Ordered)
    (hin : r.maxRow < g.rows ∧ r.maxCol < g.cols)
    (hfocus : focusRow < g.rows ∧ focusCol < g.cols) :
    g.applyStyle r focusRow focusCol command =
      .ok (g.commanded r command (g.cellAt focusRow focusCol).style, (g.visibleIn r).length) := by
  rw [applyStyle_eq, cell, check_eq_ok_iff.mpr hfocus, ← countP_visible hord hin]
  change g.updateEach r _ = _
  rw [updateEach_eq, (checkRange_eq_ok hord).mpr ((Axis.forall_iff .row).mpr hin)]
  rfl

/-- The focused cell is looked up before the rectangle. -/
theorem applyStyle_outside (command : StyleCommand)
    (hout : ¬((focusRow < g.rows ∧ focusCol < g.cols) ∧ r.maxRow < g.rows ∧ r.maxCol < g.cols)) :
    g.applyStyle r focusRow focusCol command = .error (
      if focusRow < g.rows ∧ focusCol < g.cols then
        if r.minRow < g.rows ∧ r.minCol < g.cols then g.outOfBounds r.maxRow r.maxCol
        else g.outOfBounds r.minRow r.minCol
      else g.outOfBounds focusRow focusCol) := by
  rw [applyStyle_eq, cell]
  split
  next hfocus =>
    rw [check_eq_ok_iff.mpr hfocus]
    change g.updateEach r _ = _
    rw [updateEach_eq, checkRange_outside fun hin => hout ⟨hfocus, hin⟩]
    rfl
  next hfocus =>
    rw [check_eq_error_iff.mpr ⟨hfocus, rfl⟩]
    rfl

/-- A toggle that reads a cell of its rectangle switches back and forth between two grids. -/
theorem applyStyle_toggle (e : Emphasis) (hord : r.Ordered)
    (hin : r.maxRow < g.rows ∧ r.maxCol < g.cols)
    (hfocus : (focusRow, focusCol) ∈ g.visibleIn r) :
    ∃ g₁ g₂ n, g.applyStyle r focusRow focusCol e.toggle = .ok (g₁, n) ∧
      g₁.applyStyle r focusRow focusCol e.toggle = .ok (g₂, n) ∧
      g₂.applyStyle r focusRow focusCol e.toggle = .ok (g₁, n) ∧
      ∀ row col, (row, col) ∈ g.visibleIn r →
        (g₁.cellAt row col).style.isOn e = !(g.cellAt focusRow focusCol).style.isOn e ∧
          (g₂.cellAt row col).style.isOn e = (g.cellAt focusRow focusCol).style.isOn e := by
  let next (g : Grid) : Grid := g.commanded r e.toggle (g.cellAt focusRow focusCol).style
  have hnext (g : Grid) : Restyled g r e.toggle (g.cellAt focusRow focusCol).style (next g) :=
    restyled_commanded
  have hstep {g' : Grid} (hrows : g'.rows = g.rows) (hcols : g'.cols = g.cols)
      (hvisible : g'.visibleIn r = g.visibleIn r) :
      g'.applyStyle r focusRow focusCol e.toggle = .ok (next g', (g.visibleIn r).length) := by
    rw [← hvisible]
    exact applyStyle_of_lt e.toggle hord (by rwa [hrows, hcols])
      (mem_visibleIn.mp (hvisible ▸ hfocus)).1
  have h₁ := hnext g
  have h₂ := hnext (next g)
  have h₃ := hnext (next (next g))
  have hv₁ := h₁.visibleIn_eq
  have hv₂ := h₂.visibleIn_eq.trans hv₁
  have hon₁ : ∀ row col, (row, col) ∈ g.visibleIn r →
      ((next g).cellAt row col).style.isOn e = !(g.cellAt focusRow focusCol).style.isOn e :=
    fun row col hmem => h₁.isOn hmem
  have hon₂ : ∀ row col, (row, col) ∈ g.visibleIn r →
      ((next (next g)).cellAt row col).style.isOn e =
        (g.cellAt focusRow focusCol).style.isOn e := by
    intro row col hmem
    rw [h₂.isOn (hv₁ ▸ hmem), hon₁ focusRow focusCol hfocus, Bool.not_not]
  -- the third toggle reads what the first one read, and sets the same part as both before it
  have hthird : next (next (next g)) = next g :=
    (((h₁.trans h₂ rfl).trans h₃ rfl).of_target_eq
      (StyleCommand.target_toggle (hon₂ focusRow focusCol hfocus))).unique h₁
  have hlast := hstep (h₂.rows.trans h₁.rows) (h₂.cols.trans h₁.cols) hv₂
  rw [hthird] at hlast
  exact ⟨_, _, _, hstep rfl rfl rfl, hstep h₁.rows h₁.cols hv₁, hlast,
    fun row col hmem => ⟨hon₁ row col hmem, hon₂ row col hmem⟩⟩

/-- A style command sets its part of the style of all visible cells of its rectangle to the same
value, counts these cells and changes nothing else; where the rectangle or the focused cell lies
outside the grid it is refused. A toggle whose focused cell is one of the cells that it sets turns
all of them to the opposite of that cell, back again the second time, and the third time it leaves
the grid of the first. -/
theorem applyStyle_restyles (g : Grid) (command : StyleCommand) (focusRow focusCol : Nat)
    (hord : r.Ordered) :
    let focused := (g.cellAt focusRow focusCol).style
    ((focusRow < g.rows ∧ focusCol < g.cols) ∧ r.maxRow < g.rows ∧ r.maxCol < g.cols →
      ∃ g', g.applyStyle r focusRow focusCol command = .ok (g', (g.visibleIn r).length) ∧
        Restyled g r command focused g' ∧
        ∀ other, Restyled g r command focused other → other = g') ∧
    (¬((focusRow < g.rows ∧ focusCol < g.cols) ∧ r.maxRow < g.rows ∧ r.maxCol < g.cols) →
      g.applyStyle r focusRow focusCol command = .error (
        if focusRow < g.rows ∧ focusCol < g.cols then
          if r.minRow < g.rows ∧ r.minCol < g.cols then g.outOfBounds r.maxRow r.maxCol
          else g.outOfBounds r.minRow r.minCol
        else g.outOfBounds focusRow focusCol) ∧
      g.after (.applyStyle r.minRow r.minCol r.maxRow r.maxCol focusRow focusCol command) = g) ∧
    ∀ e : Emphasis, r.maxRow < g.rows ∧ r.maxCol < g.cols →
      (focusRow, focusCol) ∈ g.visibleIn r →
      ∃ g₁ g₂ n, g.applyStyle r focusRow focusCol e.toggle = .ok (g₁, n) ∧
        g₁.applyStyle r focusRow focusCol e.toggle = .ok (g₂, n) ∧
        g₂.applyStyle r focusRow focusCol e.toggle = .ok (g₁, n) ∧
        ∀ row col, (row, col) ∈ g.visibleIn r →
          (g₁.cellAt row col).style.isOn e = (!focused.isOn e) ∧
            (g₂.cellAt row col).style.isOn e = focused.isOn e := by
  refine ⟨fun hin => ?_, fun hout => ?_, fun e hin hfocus => applyStyle_toggle e hord hin hfocus⟩
  · exact ⟨_, applyStyle_of_lt command hord hin.2 hin.1, restyled_commanded,
      fun other ho => ho.unique restyled_commanded⟩
  · have hrefused := applyStyle_outside command hout
    refine ⟨hrefused, ?_⟩
    rw [← hord.ofCorners_eq] at hrefused
    exact after_of_error (InPlace.changed_silent_eq_error_iff.mpr hrefused)

/-- A region, a bold cell and a cell that is neither: the focused cell decides for all of them. -/
theorem applyStyle_restyles_mixed :
    let g := ((Grid.blank 2 3).after (.merge 0 0 0 1)).after
      (.applyStyle 1 1 1 1 1 1 .toggleBold)
    let r := CellRange.ofCorners 1 2 0 0
    (∃ g', g.applyStyle r 0 1 .clear = .ok (g', 5) ∧ Restyled g r .clear .unset g' ∧
      ∀ other, Restyled g r .clear .unset other → other = g') ∧
    g.applyStyle r 2 0 .toggleBold = .error (g.outOfBounds 2 0) ∧
    ∃ g₁ g₂ n, g.applyStyle r 1 1 .toggleBold = .ok (g₁, n) ∧
      g₁.applyStyle r 1 1 .toggleBold = .ok (g₂, n) ∧
      g₂.applyStyle r 1 1 .toggleBold = .ok (g₁, n) ∧
      ∀ row col, (row, col) ∈ g.visibleIn r →
        (g₁.cellAt row col).style.isBold = false ∧ (g₂.cellAt row col).style.isBold = true := by
  intro g r
  have hord : r.Ordered := CellRange.ofCorners_ordered 1 2 0 0
  exact ⟨(applyStyle_restyles g .clear 0 1 hord).1 (by decide),
    ((applyStyle_restyles g .toggleBold 2 0 hord).2.1 (by decide)).1,
    (applyStyle_restyles g .clear 1 1 hord).2.2 .bold (by decide) (by decide)⟩

end Grid
end LatexTable
