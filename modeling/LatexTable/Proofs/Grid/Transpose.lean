import LatexTable.Proofs.Grid.Encoding
import LatexTable.Proofs.Grid.Reachable
/-!
Transposing a grid: rows and columns change places, and so do the two spans of every cell. The
regions are transposed, though they are listed in another order, and an edit along one axis is the
edit of the transposed grid along the other.
-/
namespace LatexTable

namespace Cell

variable {c : Cell} {axis : Axis} {n : Nat}

/-- The cell as it stands in the transposed grid. -/
def transpose (c : Cell) : Cell := { c with rowSpan := c.colSpan, colSpan := c.rowSpan }

theorem transpose_transpose : c.transpose.transpose = c := rfl

theorem transpose_empty : empty.transpose = empty := rfl

theorem span_transpose : c.transpose.span axis = c.span axis.other := by cases axis <;> rfl

theorem withSpan_transpose :
    c.transpose.withSpan axis n = (c.withSpan axis.other n).transpose := by cases axis <;> rfl

theorem isMaster_transpose : c.transpose.isMaster = c.isMaster :=
  congrArg (!c.hidden && ·) (Bool.or_comm ..)

end Cell

namespace CellRange

variable {r s : CellRange} {axis : Axis} {row col line offset : Nat}

def transpose (r : CellRange) : CellRange := ⟨r.minCol, r.minRow, r.maxCol, r.maxRow⟩

theorem transpose_injective : Function.Injective transpose := fun _ _ h => congrArg transpose h

@[simp] theorem first_transpose : r.transpose.first axis = r.first axis.other := by
  cases axis <;> rfl

@[simp] theorem last_transpose : r.transpose.last axis = r.last axis.other := by
  cases axis <;> rfl

@[simp] theorem lineCount_transpose : r.transpose.lineCount axis = r.lineCount axis.other := by
  cases axis <;> rfl

@[simp] theorem hasLine_transpose : r.transpose.hasLine axis line = r.hasLine axis.other line := by
  simp [hasLine]

@[simp] theorem startsOn_transpose :
    r.transpose.startsOn axis line offset = r.startsOn axis.other line offset := by
  simp [startsOn]

theorem startsAt_transpose : r.transpose.startsAt row col = r.startsAt col row :=
  Bool.and_comm ..

theorem contains_transpose : r.transpose.contains row col = r.contains col row := by
  rw [Bool.eq_iff_iff, contains_iff, contains_iff]
  exact And.comm

theorem intersects_transpose : r.transpose.intersects s.transpose = r.intersects s := by
  rw [Bool.eq_iff_iff, intersects_iff, intersects_iff, Axis.forall_iff .row, Axis.forall_iff .row]
  exact And.comm

theorem isSingle_transpose : r.transpose.isSingle = r.isSingle := Bool.and_comm ..

theorem footprint_transpose {c : Cell} :
    c.transpose.footprint col row = (c.footprint row col).transpose := rfl

end CellRange

/-- The error of the transposed call: coordinates and axis change places. -/
def TableError.transpose : TableError → TableError
  | .outOfBounds row col rows cols => .outOfBounds col row cols rows
  | .minimumSize axis => .minimumSize axis.other
  | err => err

/-- The answer of the transposed call, `f` transposing what it returns. -/
def mirrored {α β : Type} (f : α → β) (answer : TableResult α) : TableResult β :=
  (answer.map f).mapError TableError.transpose

section Mirrored

variable {α β : Type} {f : α → β} {a : α} {err : TableError} {x x' : TableResult Unit}
  {k : Unit → TableResult α} {k' : Unit → TableResult β}

theorem mirrored_ok : mirrored f (.ok a) = .ok (f a) := rfl

theorem mirrored_error : mirrored f (.error err : TableResult α) = .error err.transpose := rfl

/-- A check that fails on one side fails on the other, and neither goes on then. -/
theorem mirrored_check_bind (hcheck : x' = mirrored id x) (hrest : k' () = mirrored f (k ())) :
    x' >>= k' = mirrored f (x >>= k) := by
  subst hcheck
  cases x with
  | error err => rfl
  | ok _ => exact hrest

end Mirrored

namespace Grid
open InPlace

variable {g : Grid} {R : Set CellRange} {r : CellRange} {axis : Axis}
  {pos row col line offset rows cols : Nat} {found found' : List CellRange}

def transpose (g : Grid) : Grid :=
  tabulate g.cols g.rows fun row col => (g.cellAt col row).transpose

theorem lineCount_transpose : g.transpose.lineCount axis = g.lineCount axis.other := by
  cases axis <;> rfl

theorem cellAt_transpose :
    g.transpose.cellAt row col = (g.cellAt col row).transpose := by
  by_cases hin : row < g.cols ∧ col < g.rows
  · exact cellAt_tabulate hin.1 hin.2
  · rw [cellAt_of_not_lt hin, cellAt_of_not_lt fun h => hin h.symm, Cell.transpose_empty]

theorem cellOn_transpose :
    g.transpose.cellOn axis line offset = (g.cellOn axis.other line offset).transpose := by
  cases axis <;> exact cellAt_transpose

theorem transpose_full : g.transpose.Full := tabulate_full ..

theorem transpose_transpose (hg : g.Full) : g.transpose.transpose = g := by
  refine transpose_full.ext hg rfl rfl ?_
  intro row col _ _
  rw [cellAt_transpose, cellAt_transpose, Cell.transpose_transpose]

theorem transpose_tabulate (f : Nat → Nat → Cell) :
    (tabulate rows cols f).transpose = tabulate cols rows fun row col => (f col row).transpose := by
  refine transpose_full.ext (tabulate_full ..) rfl rfl ?_
  intro row col (hr : row < cols) (hc : col < rows)
  rw [cellAt_transpose, cellAt_tabulate hc hr, cellAt_tabulate hr hc]

theorem tabulateLines_transpose {lines : Nat} {f : Nat → Nat → Cell} :
    (g.transpose.tabulateLines axis lines fun line offset => (f line offset).transpose) =
      (g.tabulateLines axis.other lines f).transpose := by
  cases axis
  · exact (transpose_tabulate fun row col => f col row).symm
  · exact (transpose_tabulate f).symm

theorem Fits.transpose (h : g.Fits) : g.transpose.Fits := (Nat.mul_comm ..).trans_le h

/-- The transposed regions are laid out on the transposed grid. -/
theorem Layout.transpose (h : Layout g R) : Layout g.transpose {r | r.transpose ∈ R} where
  full := transpose_full
  pos := fun axis => lineCount_transpose ▸ h.pos axis.other
  ordered := fun r hr axis => by simpa using h.ordered _ hr axis.other
  inside := fun r hr axis => by simpa [lineCount_transpose] using h.inside _ hr axis.other
  proper := fun r hr => CellRange.isSingle_transpose ▸ h.proper _ hr
  disjoint := fun r hr s hs hrs =>
    CellRange.transpose_injective (h.disjoint _ hr _ hs (CellRange.intersects_transpose ▸ hrs))
  owner := by
    intro r hr row col hs
    obtain ⟨hv, hspan⟩ := h.owner _ hr col row (CellRange.startsAt_transpose ▸ hs)
    rw [cellAt_transpose]
    exact ⟨hv, fun axis => by simpa [Cell.span_transpose] using hspan axis.other⟩
  shadow := by
    intro r hr row col hc hs
    rw [cellAt_transpose, h.shadow _ hr col row (CellRange.contains_transpose ▸ hc)
      (CellRange.startsAt_transpose ▸ hs)]
    rfl
  free := by
    intro row col hfree
    obtain ⟨hv, hspan⟩ := h.free col row fun r hr => by
      rw [← CellRange.contains_transpose]
      exact hfree r.transpose hr
    rw [cellAt_transpose]
    exact ⟨hv, fun axis => by rw [Cell.span_transpose, hspan axis.other]⟩

section Reflected

variable {α β : Type} {left : TableResult α × Grid} {question question' : Grid → TableResult Unit}
  {rest rest' : Unit → InPlace Grid β}

/-- What the transposed call answers and leaves. -/
def reflected (left : TableResult α × Grid) : TableResult α × Grid :=
  (mirrored id left.1, left.2.transpose)

theorem changed_reflected {left : TableResult Unit × Grid} :
    changed (reflected left) = mirrored transpose (changed left) := by
  obtain ⟨_ | _, h⟩ := left <;> rfl

theorem answered_reflected : answered (reflected left) =
    mirrored (fun answer => (answer.1.transpose, answer.2)) (answered left) := by
  obtain ⟨_ | _, h⟩ := left <;> rfl

/-- A question that is refused on one side is refused on the other, and no cell changes then. -/
theorem reflected_ask_bind (hquestion : question' g.transpose = mirrored id (question g))
    (hrest : perform g.transpose (rest' ()) = reflected (perform g (rest ()))) :
    perform g.transpose (ask question' >>= rest') = reflected (perform g (ask question >>= rest)) := by
  rw [perform_ask_bind, perform_ask_bind, hquestion]
  cases question g with
  | ok _ => exact hrest
  | error err => rfl

end Reflected

section Regions

theorem find?_eq_of_perm {α : Type} {p : α → Bool} {as bs : List α} (h : as.Perm bs)
    (hunique : ∀ a ∈ as, ∀ b ∈ as, p a = true → p b = true → a = b) :
    bs.find? p = as.find? p := by
  cases has : as.find? p with
  | none =>
    rw [List.find?_eq_none] at has ⊢
    exact fun b hb => has b (h.symm.subset hb)
  | some a =>
    have ha := List.mem_of_find?_eq_some has
    have hpa := List.find?_some has
    exact find?_eq_some_of_unique (h.subset ha) hpa fun b hb hpb =>
      hunique b (h.symm.subset hb) a ha hpb hpa

theorem mem_regions_transpose : r ∈ g.transpose.regions ↔ r.transpose ∈ g.regions := by
  rw [mem_regions_iff, mem_regions_iff, cellAt_transpose, Cell.isMaster_transpose]
  refine and_congr And.comm (and_congr_right fun _ => ?_)
  rw [CellRange.footprint_transpose]
  exact ⟨fun h => congrArg CellRange.transpose h, fun h => congrArg CellRange.transpose h⟩

/-- A region is known by its first cell. -/
theorem eq_of_mem_regions {s : CellRange} (hr : r ∈ g.regions) (hs : s ∈ g.regions)
    (hrs : r.startsOn axis line offset = true) (hss : s.startsOn axis line offset = true) :
    r = s := by
  have hfirst : r.minRow = s.minRow ∧ r.minCol = s.minCol := by
    rw [CellRange.startsOn_iff] at hrs hss
    cases axis
    · exact ⟨hrs.1.trans hss.1.symm, hrs.2.trans hss.2.symm⟩
    · exact ⟨hrs.2.trans hss.2.symm, hrs.1.trans hss.1.symm⟩
  rw [← (mem_regions_iff.mp hr).2.2, ← (mem_regions_iff.mp hs).2.2, hfirst.1, hfirst.2]

theorem regions_transpose_perm : g.transpose.regions.Perm (g.regions.map CellRange.transpose) := by
  rw [List.perm_ext_iff_of_nodup g.transpose.regions_nodup
    (g.regions_nodup.map CellRange.transpose_injective)]
  intro r
  rw [mem_regions_transpose, List.mem_map]
  exact ⟨fun h => ⟨_, h, rfl⟩, by rintro ⟨s, hs, rfl⟩; exact hs⟩

/-- Selecting regions on both sides by the same property. -/
theorem filter_regions_perm {p p' : CellRange → Bool} (hp : ∀ r, p' r.transpose = p r) :
    (g.transpose.regions.filter p').Perm ((g.regions.filter p).map CellRange.transpose) := by
  have hfilter := (regions_transpose_perm (g := g)).filter p'
  rw [List.filter_map] at hfilter
  convert hfilter using 3
  exact funext fun r => (hp r).symm

theorem any_transpose {p p' : CellRange → Bool} (h : found'.Perm (found.map CellRange.transpose))
    (hp : ∀ r, p' r.transpose = p r) : found'.any p' = found.any p := by
  rw [h.any_eq, List.any_map]
  exact congrArg found.any (funext hp)

/-- A property that fixes the first cell singles one region out, in whatever order it is
searched. -/
theorem find?_transpose {p p' : CellRange → Bool}
    (h : found'.Perm (found.map CellRange.transpose)) (hp : ∀ r, p' r.transpose = p r)
    (hfound : found ⊆ g.regions) (hstarts : ∀ r, p r = true → r.startsOn axis line offset = true) :
    found'.find? p' = (found.find? p).map CellRange.transpose := by
  rw [find?_eq_of_perm h.symm, List.find?_map, show p' ∘ CellRange.transpose = p from funext hp]
  intro r hr s hs hpr hps
  obtain ⟨r₀, hr₀, rfl⟩ := List.mem_map.mp hr
  obtain ⟨s₀, hs₀, rfl⟩ := List.mem_map.mp hs
  rw [hp] at hpr hps
  rw [eq_of_mem_regions (hfound hr₀) (hfound hs₀) (hstarts r₀ hpr) (hstarts s₀ hps)]

end Regions

theorem check_transpose : g.transpose.check row col = mirrored id (g.check col row) := by
  have hguard : (decide (row < g.transpose.rows) && decide (col < g.transpose.cols)) =
      (decide (col < g.rows) && decide (row < g.cols)) := Bool.and_comm ..
  unfold check
  rw [hguard]
  split <;> rfl

theorem checkRange_transpose :
    g.transpose.checkRange r.transpose = mirrored id (g.checkRange r) :=
  mirrored_check_bind check_transpose check_transpose

theorem checkLine_transpose :
    g.transpose.checkLine axis pos = mirrored id (g.checkLine axis.other pos) := by
  cases axis <;> exact check_transpose

theorem outsideLine_transpose :
    g.transpose.outsideLine axis pos = (g.outsideLine axis.other pos).transpose := by
  cases axis <;> rfl

theorem insertedCell_transpose (h : found'.Perm (found.map CellRange.transpose)) :
    g.transpose.insertedCell axis pos found' line offset =
      (g.insertedCell axis.other pos found line offset).transpose := by
  have hstarts : (found'.any fun r => r.startsOn axis line offset) =
      found.any fun r => r.startsOn axis.other line offset :=
    any_transpose h fun r => CellRange.startsOn_transpose
  have hlines : (found'.any fun r => r.hasLine axis.other offset) =
      found.any fun r => r.hasLine axis.other.other offset :=
    any_transpose h fun r => CellRange.hasLine_transpose
  unfold insertedCell
  dsimp only
  rw [hstarts, hlines, cellOn_transpose, cellOn_transpose, Cell.span_transpose,
    Cell.withSpan_transpose]
  split_ifs <;> rfl

theorem inserted_transpose (g : Grid) (axis : Axis) (pos : Nat) :
    g.transpose.inserted axis pos = (g.inserted axis.other pos).transpose := by
  have hperm : (g.transpose.runningThrough axis pos).Perm
      ((g.runningThrough axis.other pos).map CellRange.transpose) :=
    filter_regions_perm fun r => by simp
  rw [inserted, inserted, lineCount_transpose, ← tabulateLines_transpose]
  refine congrArg (g.transpose.tabulateLines axis _) ?_
  funext line offset
  exact insertedCell_transpose hperm

theorem insertLine_transpose (g : Grid) (axis : Axis) (pos : Nat) :
    g.transpose.insertLineInPlace axis pos = reflected (g.insertLineInPlace axis.other pos) := by
  rw [insertLineInPlace_eq, insertLineInPlace_eq, ← inserted, ← inserted, lineCount_transpose]
  split
  · rw [reflected, mirrored_error, outsideLine_transpose]
  · rw [reflected, mirrored_ok, inserted_transpose]

theorem addLine_transpose (g : Grid) (axis : Axis) :
    g.transpose.addLine axis = (g.addLine axis.other).transpose := by
  rw [addLine_eq, addLine_eq, lineCount_transpose, inserted_transpose]

theorem heir_transpose {c : Cell} :
    g.transpose.heir axis r.transpose c.transpose = (g.heir axis.other r c).transpose := by
  have hstyle : (g.transpose.cellAt r.transpose.minRow r.transpose.minCol).style =
      (g.cellAt r.minRow r.minCol).style := by
    rw [cellAt_transpose]
    rfl
  unfold heir
  rw [hstyle, CellRange.lineCount_transpose]
  cases axis <;> rfl

theorem settledCell_transpose (hfound : found ⊆ g.regions)
    (h : found'.Perm (found.map CellRange.transpose)) :
    g.transpose.settledCell axis pos found' line offset =
      (g.settledCell axis.other pos found line offset).transpose := by
  have hany : (found'.any fun r => r.first axis < pos && r.startsOn axis line offset) =
      found.any fun r => r.first axis.other < pos && r.startsOn axis.other line offset :=
    any_transpose h fun r => by simp
  have hfind : (found'.find? fun r =>
        1 < r.lineCount axis && line = pos + 1 && r.startsOn axis pos offset) =
      (found.find? fun r => 1 < r.lineCount axis.other && line = pos + 1 &&
        r.startsOn axis.other pos offset).map CellRange.transpose :=
    find?_transpose h (fun r => by simp) hfound fun r hr => (Bool.and_eq_true _ _ ▸ hr).2
  unfold settledCell
  dsimp only
  rw [hany, hfind, cellOn_transpose, Cell.span_transpose, Cell.withSpan_transpose]
  cases found.find? fun r => 1 < r.lineCount axis.other && line = pos + 1 &&
      r.startsOn axis.other pos offset with
  | some r => exact heir_transpose
  | none =>
    dsimp only [Option.map_none]
    split_ifs <;> rfl

theorem deleteLine_transpose (g : Grid) (axis : Axis) (pos : Nat) :
    g.transpose.deleteLineInPlace axis pos = reflected (g.deleteLineInPlace axis.other pos) := by
  have hperm : (g.transpose.meeting axis pos).Perm
      ((g.meeting axis.other pos).map CellRange.transpose) :=
    filter_regions_perm fun r => CellRange.hasLine_transpose
  refine reflected_ask_bind checkLine_transpose ?_
  rw [lineCount_transpose]
  split
  · refine Prod.ext ?_ rfl
    show _ = mirrored id (.error (.minimumSize axis.other))
    rw [mirrored_error, TableError.transpose, Axis.other_other]
    rfl
  · refine Prod.ext rfl ?_
    show g.transpose.tabulateLines axis _ _ = Grid.transpose (g.tabulateLines axis.other _ _)
    rw [← tabulateLines_transpose, lineCount_transpose]
    refine congrArg (g.transpose.tabulateLines axis _) ?_
    funext line offset
    exact settledCell_transpose List.filter_sublist.subset hperm

theorem lineHasContent_transpose (g : Grid) (axis : Axis) (pos : Nat) :
    g.transpose.lineHasContent axis pos = mirrored id (g.lineHasContent axis.other pos) := by
  refine mirrored_check_bind checkLine_transpose ?_
  simp only [lineCount_transpose, cellOn_transpose]
  rfl

theorem dissolve_transpose (h : found'.Perm (found.map CellRange.transpose)) :
    g.transpose.dissolve found' = (g.dissolve found).transpose := by
  unfold dissolve
  rw [transpose_tabulate]
  refine congrArg (tabulate g.cols g.rows) ?_
  funext row col
  have hstarts : (found'.any fun r => r.startsAt row col) = found.any fun r => r.startsAt col row :=
    any_transpose h fun r => CellRange.startsAt_transpose
  have hcontains : (found'.any fun r => r.contains row col) =
      found.any fun r => r.contains col row :=
    any_transpose h fun r => CellRange.contains_transpose
  unfold dissolvedAt
  rw [hstarts, hcontains, cellAt_transpose]
  split_ifs <;> rfl

theorem cover_transpose : g.transpose.cover r.transpose = (g.cover r).transpose := by
  unfold cover
  rw [transpose_tabulate]
  refine congrArg (tabulate g.cols g.rows) ?_
  funext row col
  rw [CellRange.startsAt_transpose, CellRange.contains_transpose, cellAt_transpose]
  split_ifs <;> rfl

theorem merge_transpose (g : Grid) (r : CellRange) :
    g.transpose.mergeInPlace r.transpose = reflected (g.mergeInPlace r) := by
  have hperm : (g.transpose.regions.filter (·.intersects r.transpose)).Perm
      ((g.regions.filter (·.intersects r)).map CellRange.transpose) :=
    filter_regions_perm fun s => CellRange.intersects_transpose
  refine reflected_ask_bind checkRange_transpose ?_
  rw [CellRange.isSingle_transpose]
  split
  · rfl
  · refine Prod.ext rfl ?_
    show (g.transpose.dissolve _).cover r.transpose = ((g.dissolve _).cover r).transpose
    rw [dissolve_transpose hperm, cover_transpose]

theorem split_transpose (g : Grid) (r : CellRange) :
    g.transpose.splitInPlace r.transpose = reflected (g.splitInPlace r) := by
  have hperm : (g.transpose.regions.filter fun s => r.transpose.contains s.minRow s.minCol).Perm
      ((g.regions.filter fun s => r.contains s.minRow s.minCol).map CellRange.transpose) :=
    filter_regions_perm fun s => CellRange.contains_transpose
  refine reflected_ask_bind checkRange_transpose ?_
  refine Prod.ext ?_ (dissolve_transpose hperm)
  exact congrArg Except.ok (hperm.length_eq.trans (List.length_map _))

namespace Full

theorem insertLine_reflected (hg : g.Full) (axis : Axis) (pos : Nat) :
    g.insertLineInPlace axis pos = reflected (g.transpose.insertLineInPlace axis.other pos) := by
  have h := insertLine_transpose g.transpose axis pos
  rwa [transpose_transpose hg] at h

theorem deleteLine_reflected (hg : g.Full) (axis : Axis) (pos : Nat) :
    g.deleteLineInPlace axis pos = reflected (g.transpose.deleteLineInPlace axis.other pos) := by
  have h := deleteLine_transpose g.transpose axis pos
  rwa [transpose_transpose hg] at h

theorem addLine_reflected (hg : g.Full) (axis : Axis) :
    g.addLine axis = (g.transpose.addLine axis.other).transpose := by
  have h := addLine_transpose g.transpose axis
  rwa [transpose_transpose hg] at h

theorem lineHasContent_reflected (hg : g.Full) (axis : Axis) (pos : Nat) :
    g.lineHasContent axis pos = mirrored id (g.transpose.lineHasContent axis.other pos) := by
  have h := lineHasContent_transpose g.transpose axis pos
  rwa [transpose_transpose hg] at h

theorem merge_reflected (hg : g.Full) (r : CellRange) :
    g.mergeInPlace r = reflected (g.transpose.mergeInPlace r.transpose) := by
  have h := merge_transpose g.transpose r.transpose
  rwa [transpose_transpose hg] at h

theorem split_reflected (hg : g.Full) (r : CellRange) :
    g.splitInPlace r = reflected (g.transpose.splitInPlace r.transpose) := by
  have h := split_transpose g.transpose r.transpose
  rwa [transpose_transpose hg] at h

end Full

/-- Columns are edited as the rows of the transposed grid are, and rectangles are merged and split
as the transposed ones there. -/
structure Mirrored (g : Grid) : Prop where
  insert : ∀ pos, g.insertCol pos = mirrored transpose (g.transpose.insertRow pos)
  delete : ∀ pos, g.deleteCol pos = mirrored transpose (g.transpose.deleteRow pos)
  add : g.addCol = g.transpose.addRow.transpose
  content : ∀ pos, g.colHasContent pos = mirrored id (g.transpose.rowHasContent pos)
  merge : ∀ r : CellRange, g.merge r = mirrored transpose (g.transpose.merge r.transpose)
  split : ∀ r : CellRange, g.split r =
    mirrored (fun answer => (answer.1.transpose, answer.2)) (g.transpose.split r.transpose)

/-- Every edit of the columns of a reachable grid is the mirror image of the edit of the rows. -/
theorem reachable_mirrored (h : g.Reachable) : g.Mirrored where
  insert := fun pos =>
    (congrArg changed (h.layout.full.insertLine_reflected .column pos)).trans changed_reflected
  delete := fun pos =>
    (congrArg changed (h.layout.full.deleteLine_reflected .column pos)).trans changed_reflected
  add := h.layout.full.addLine_reflected .column
  content := h.layout.full.lineHasContent_reflected .column
  merge := fun r => (congrArg changed (h.layout.full.merge_reflected r)).trans changed_reflected
  split := fun r => (congrArg answered (h.layout.full.split_reflected r)).trans answered_reflected

theorem reachable_mirrored_beside :
    (((Grid.blank 3 4).after (.merge 0 0 2 1)).after (.merge 1 2 2 3)).Mirrored := by
  refine reachable_mirrored (.edit _ (.edit _ (.blank 3 4 ?_) ?_) ?_) <;> decide

end Grid
end LatexTable
