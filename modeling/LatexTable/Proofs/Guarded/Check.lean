import LatexTable.Check.Table
import LatexTable.Proofs.Guarded.Merge
/-!
Validation and the check of a table with every access guarded. Validation keeps a store of its own,
which tells for every place how many regions cover it without starting there; the check of a text
counts its open braces.
-/
namespace LatexTable

namespace Guarded

/-- One place more is covered. -/
def coverNext (cols : Nat) (owners : Array Nat) : Nat × Nat → Guarded (Array Nat)
  | (row, col) => do
    let i ← offset cols row col
    write owners i (← add (← read owners i) 1)

/-- The places of a region after its first one are covered, when the region lies in the grid. -/
def coverRegion (g : Grid) (owners : TableResult (Array Nat)) (r : CellRange) :
    Guarded (TableResult (Array Nat)) :=
  proceed owners fun owners => do
    if g.rows ≤ r.maxRow || g.cols ≤ r.maxCol then
      return .error (.invalidDocument (.spansOutside r.minRow r.minCol))
    else return .ok (← (r.cells.drop 1).foldlM (coverNext g.cols) owners)

def cellFault? (g : Grid) (owners : Array Nat) (row col : Nat) :
    Guarded (Option DocumentFault) := do
  let i ← offset g.cols row col
  let c ← read g.cells i
  let covers ← read owners i
  if covers ≠ (if c.hidden then 1 else 0) then return some (.coveredBy row col covers)
  else if c.hidden && c ≠ .shadow then return some (.shadowCarriesData row col)
  else return none

def validate (g : Grid) : Guarded (TableResult Unit) := do
  if g.cells.size ≠ (← mul g.rows g.cols) then
    return .error (.invalidDocument (.cellCount g.cells.size g.rows g.cols))
  else
    let uncovered := Array.replicate g.cells.size 0
    proceed (← (← regions g).foldlM (coverRegion g) (.ok uncovered)) fun owners => do
      match ← g.places.findSomeM? fun (row, col) => cellFault? g owners row col with
      | some fault => return .error (.invalidDocument fault)
      | none => return .ok ()

/-- The faults in the rest of a text, the open braces being counted. -/
def braceFaultsFrom : Int → Bool → List Char → Guarded (List Text.BraceFault)
  | depth, _, [] => return if 0 < depth then [.unclosed depth.toNat] else []
  | depth, escaped, c :: cs =>
    if c = '\\' then braceFaultsFrom depth (!escaped) cs
    else if c = '\x7b' && !escaped then do
      let depth ← counted (depth + 1)
      braceFaultsFrom depth false cs
    else if c = '\x7d' && !escaped then do
      let depth ← counted (depth - 1)
      if depth < 0 then return .unmatchedClosing :: (← braceFaultsFrom 0 false cs)
      else braceFaultsFrom depth false cs
    else braceFaultsFrom depth false cs

def braceFaults (s : String) : Guarded (List Text.BraceFault) := braceFaultsFrom 0 false s.toList

/-- The numbers in a diagnostic count from one, and have to be indices. -/
def numbered (d : Diagnostic) : Guarded Diagnostic := do
  let _ ← index (d.row.getD 0)
  let _ ← index (d.column.getD 0)
  return d

def cellDiagnostics (c : Cell) (row col : Nat) : Guarded (List Diagnostic) := do
  if c.hidden then return []
  else
    let faults ← braceFaults c.text
    (ampersandDiagnostics c.text row col ++ faults.map (braceDiagnostic c.text row col) ++
      colorDiagnostics c.style row col).mapM numbered

def gridDiagnostics (g : Grid) : Guarded (List Diagnostic) := do
  let lines ← rowList g
  let found ← lines.zipIdx.mapM fun (line, row) =>
    line.zipIdx.mapM fun (c, col) => cellDiagnostics c row col
  return found.flatten.flatten ++
    if lines.flatten.any fun c => !c.hidden && c.hasContent then []
    else [{ severity := .info, message := "table has no content" }]

def encodingDiagnostics (g : Grid) : Guarded (List Diagnostic) := do
  match ← validate g with
  | .ok () => return []
  | .error e => return [{ severity := .error, message := e.message }]

def checkTable (g : Grid) (columns : ColumnSpecs) (dialect : Dialect) (o : TableOptions) :
    Guarded Report := do
  let encoding ← encodingDiagnostics g
  let mapped ← (columnDiagnostics dialect columns).mapM numbered
  let cells ← gridDiagnostics g
  return ⟨encoding ++ registryDiagnostics g columns ++ mapped ++ cells ++
    themeDiagnostics dialect o ++ labelDiagnostics o ++ ruleDiagnostics dialect o⟩

end Guarded

section Braces

/-- The braces of a text, opening or closing. -/
def Text.braceCount (cs : List Char) : Nat := cs.countP fun c => c = '\x7b' || c = '\x7d'

variable {n : Nat} {escaped : Bool} {cs : List Char}

/-- A text with few braces keeps the counter in its range. -/
theorem Guarded.braceFaultsFrom_eq (h : n + Text.braceCount cs < 2147483648) :
    braceFaultsFrom n escaped cs = .ok (Text.braceFaultsFrom n escaped cs) := by
  induction cs generalizing n escaped with
  | nil =>
    cases n with
    | zero => rfl
    | succ n =>
      have hopen : (0 : Int) < (n + 1 : Nat) := by omega
      rw [braceFaultsFrom, if_pos hopen]
      rfl
  | cons c cs ih =>
    have hcount : Text.braceCount (c :: cs) =
        Text.braceCount cs + if (c = '\x7b' || c = '\x7d') = true then 1 else 0 :=
      List.countP_cons
    have hrest : n + Text.braceCount cs < 2147483648 := by omega
    have hbrace (hc : (c = '\x7b' || c = '\x7d') = true) :
        n + Text.braceCount cs + 1 < 2147483648 := by
      rw [if_pos hc] at hcount
      omega
    rw [braceFaultsFrom, Text.braceFaultsFrom.eq_def]
    dsimp only
    split_ifs with hslash hopen hclose
    · exact ih hrest
    · have hc : c = '\x7b' := by simp_all
      have hfew := hbrace (by simp [hc])
      have hdepth : (n : Int) + 1 = (n + 1 : Nat) := rfl
      have hnext : n + 1 + Text.braceCount cs < 2147483648 := by omega
      rw [counted_eq (by omega) (by omega), ok_bind, hdepth]
      exact ih hnext
    · have hc : c = '\x7d' := by simp_all
      have hfew := hbrace (by simp [hc])
      rw [counted_eq (by omega) (by omega), ok_bind]
      cases n with
      | zero =>
        have hclosed := @ih 0 false (by omega)
        rw [if_pos (by decide)]
        exact congrArg (· >>= fun faults => .ok (.unmatchedClosing :: faults)) hclosed
      | succ n =>
        have hdepth : ((n + 1 : Nat) : Int) - 1 = n := by omega
        rw [hdepth, if_neg (by omega)]
        exact ih (by omega)
    · exact ih hrest

end Braces
section Diagnostics

variable {c : Cell} {row col : Nat} {d : Diagnostic} {ds : List Diagnostic} {dialect : Dialect}
  {columns : ColumnSpecs}

/-- A diagnostic of a cell names the place of the cell. -/
theorem place_of_mem_cellDiagnostics (h : d ∈ cellDiagnostics c row col) :
    d.row = some (row + 1) ∧ d.column = some (col + 1) := by
  unfold cellDiagnostics at h
  split at h
  · cases h
  · simp only [List.mem_append, ampersandDiagnostics, List.mem_map, colorDiagnostics,
      List.mem_flatMap] at h
    rcases h with (h | ⟨fault, -, rfl⟩) | ⟨color, -, name, -, rfl⟩
    · split at h
      · obtain rfl := List.mem_singleton.mp h
        exact ⟨rfl, rfl⟩
      · cases h
    · cases fault <;> exact ⟨rfl, rfl⟩
    · exact ⟨rfl, rfl⟩

/-- A diagnostic of the registry names a column of it. -/
theorem column_of_mem_columnDiagnostics (h : d ∈ columnDiagnostics dialect columns) :
    d.row = none ∧ ∃ col < columns.length, d.column = some (col + 1) := by
  simp only [columnDiagnostics, List.mem_filterMap, Prod.exists] at h
  obtain ⟨spec, mapped, col, hmem, hd⟩ := h
  have hlt : col < columns.length := by
    have hzip := List.snd_lt_of_mem_zipIdx hmem
    simp only [List.length_zip] at hzip
    omega
  unfold columnDiagnostic? at hd
  split at hd
  · obtain rfl := Option.some.inj hd
    exact ⟨rfl, col, hlt, rfl⟩
  · split at hd
    · cases hd
    · obtain rfl := Option.some.inj hd
      exact ⟨rfl, col, hlt, rfl⟩

namespace Guarded

theorem mapM_numbered_eq
    (h : ∀ d ∈ ds, d.row.getD 0 ≤ maxIndex ∧ d.column.getD 0 ≤ maxIndex) :
    ds.mapM numbered = .ok ds := by
  rw [mapM_eq (g := id), List.map_id]
  intro d hd
  rw [numbered, index_eq (h d hd).1, ok_bind, index_eq (h d hd).2]
  rfl

theorem cellDiagnostics_eq (hrow : row + 1 ≤ maxIndex) (hcol : col + 1 ≤ maxIndex)
    (hbraces : Text.braceCount c.text.toList < 2147483648) :
    cellDiagnostics c row col = .ok (LatexTable.cellDiagnostics c row col) := by
  have hplace : ∀ d ∈ LatexTable.cellDiagnostics c row col,
      d.row.getD 0 ≤ maxIndex ∧ d.column.getD 0 ≤ maxIndex := by
    intro d hd
    obtain ⟨hr, hc⟩ := place_of_mem_cellDiagnostics hd
    rw [hr, hc]
    exact ⟨hrow, hcol⟩
  have hfaults : braceFaults c.text = .ok (Text.braceFaults c.text) :=
    braceFaultsFrom_eq (by rwa [Nat.zero_add])
  unfold LatexTable.cellDiagnostics at hplace ⊢
  unfold cellDiagnostics
  by_cases hh : c.hidden = true
  · rw [if_pos hh, if_pos hh]
    rfl
  · rw [if_neg hh] at hplace
    rw [if_neg hh, if_neg hh, hfaults, ok_bind, mapM_numbered_eq hplace]

end Guarded
end Diagnostics

namespace Grid

variable {g : Grid} {R : Set CellRange}

/-- No text of a cell has braces enough to leave the counter's range. -/
def FewBraces (g : Grid) : Prop :=
  ∀ row < g.rows, ∀ col < g.cols, Text.braceCount (g.cellAt row col).text.toList < 2147483648

instance : Decidable g.FewBraces :=
  inferInstanceAs (Decidable (∀ row < g.rows, ∀ col < g.cols, _ < _))

theorem gridDiagnostics_guarded (h : g.Stored) (hcols : 0 < g.cols) (hrows : g.rows ≤ maxIndex)
    (hmax : g.cols ≤ maxIndex) (hbraces : g.FewBraces) :
    Guarded.gridDiagnostics g = .ok (gridDiagnostics g) := by
  have hcell : ∀ row < g.rows, ∀ col < g.cols,
      Guarded.cellDiagnostics (g.cellAt row col) row col =
        .ok (cellDiagnostics (g.cellAt row col) row col) := fun row hr col hc =>
    Guarded.cellDiagnostics_eq (by omega) (by omega) (hbraces row hr col hc)
  have hfound : ((g.places.map fun (row, col) =>
        cellDiagnostics (g.cellAt row col) row col).flatten) =
      g.places.flatMap fun (row, col) => cellDiagnostics (g.cellAt row col) row col :=
    List.flatMap_def.symm
  rw [Guarded.gridDiagnostics, h.rowList_eq hcols, Guarded.ok_bind, mapM_rowList hcell,
    Guarded.ok_bind, flatten_rows, flatten_rowList, gridDiagnostics, hfound, List.any_map,
    List.any_filter]
  rfl

/-- How often a place is covered once one region more is counted. -/
theorem coverCount_append (rs : List CellRange) (r : CellRange) (row col : Nat) :
    coverCount (rs ++ [r]) row col =
      coverCount rs row col + if r.contains row col && !r.startsAt row col then 1 else 0 := by
  simp [coverCount, List.countP_append, List.countP_singleton]

theorem length_regions_le : g.regions.length ≤ g.rows * g.cols := by
  have hplaces : g.places.length = g.rows * g.cols := by simp [places, List.length_flatMap]
  exact hplaces ▸ List.length_filterMap_le ..

/-- The cells of a rectangle other than the first. -/
theorem mem_drop_cells {r : CellRange} (h : r.Ordered) {row col : Nat} :
    (row, col) ∈ r.cells.drop 1 ↔ (r.contains row col && !r.startsAt row col) = true := by
  have hcons : r.cells = (r.minRow, r.minCol) :: r.cells.drop 1 := by
    simp [CellRange.cells, CellRange.rowCount, CellRange.colCount, List.range'_succ]
  have hnodup := r.cells_nodup
  rw [hcons, List.nodup_cons] at hnodup
  have hmem : (row, col) ∈ r.cells ↔ r.contains row col = true := CellRange.mem_cells h
  rw [hcons, List.mem_cons, Prod.mk.injEq] at hmem
  simp only [Bool.and_eq_true, Bool.not_eq_true', ← hmem, ← Bool.not_eq_true,
    CellRange.startsAt_iff]
  constructor
  · intro hin
    refine ⟨.inr hin, ?_⟩
    rintro ⟨rfl, rfl⟩
    exact hnodup.1 hin
  · rintro ⟨⟨rfl, rfl⟩ | hin, hstart⟩
    · exact absurd ⟨rfl, rfl⟩ hstart
    · exact hin

/-- A loop that counts places once more, each of them one time. -/
theorem foldlM_coverNext_eq (hf : g.Fits) {f : Nat → Nat → Nat} {l : List (Nat × Nat)}
    (hin : ∀ p ∈ l, p.1 < g.rows ∧ p.2 < g.cols) (hnodup : l.Nodup)
    (hmax : ∀ p ∈ l, f p.1 p.2 + 1 ≤ maxIndex) :
    l.foldlM (Guarded.coverNext g.cols) (laidOut g.rows g.cols f) =
      .ok (laidOut g.rows g.cols fun row col => f row col + if (row, col) ∈ l then 1 else 0) := by
  have hrun := Guarded.foldlM_eq (f := Guarded.coverNext g.cols) (l := l) (s := fun done =>
    laidOut g.rows g.cols fun row col => f row col + if (row, col) ∈ done then 1 else 0)
    fun done p rest hl => by
      obtain ⟨row, col⟩ := p
      obtain ⟨hr, hc⟩ : row < g.rows ∧ col < g.cols := hin (row, col) (by simp [hl])
      have hfew : f row col + 1 ≤ maxIndex := hmax (row, col) (by simp [hl])
      have hnew : (row, col) ∉ done := by
        simpa using notMem_done (t := id) (by simpa using hnodup) hl
      rw [Guarded.coverNext, Guarded.offset_eq hr hc hf, Guarded.ok_bind,
        Guarded.read_laidOut hr hc, Guarded.ok_bind, if_neg hnew, Nat.add_zero,
        Guarded.add_eq hfew, Guarded.ok_bind, Guarded.write_laidOut hr hc]
      refine congrArg Except.ok (laidOut_congr fun r _ k _ => ?_)
      by_cases hat : r = row ∧ k = col
      · obtain ⟨rfl, rfl⟩ := hat
        simp
      · simp [hat]
  simpa using hrun

theorem Layout.foldlM_coverRegion_eq (h : Layout g R) (hf : g.Fits) :
    g.regions.foldlM (Guarded.coverRegion g) (.ok (laidOut g.rows g.cols fun _ _ => 0)) =
      .ok (.ok (laidOut g.rows g.cols (coverCount g.regions))) := by
  have hi := h.indexed hf
  have hrun := Guarded.foldlM_eq (f := Guarded.coverRegion g) (l := g.regions)
    (s := fun done => (.ok (laidOut g.rows g.cols (coverCount done)) : TableResult (Array Nat)))
    fun done r rest hl => by
      have hr : r ∈ R := (h.mem_regions hi).mp (by simp [hl])
      have hord := h.ordered r hr
      have hrow : r.maxRow < g.rows := h.inside r hr .row
      have hcol : r.maxCol < g.cols := h.inside r hr .column
      have hdone : done.length + 1 ≤ g.rows * g.cols := by
        refine le_trans ?_ g.length_regions_le
        simp [hl]
      have hin : ∀ p ∈ r.cells.drop 1, p.1 < g.rows ∧ p.2 < g.cols := by
        intro p hp
        exact h.lt_of_contains hr ((CellRange.mem_cells hord).mp (List.mem_of_mem_drop hp))
      have hfew : ∀ p ∈ r.cells.drop 1, coverCount done p.1 p.2 + 1 ≤ maxIndex := by
        intro p _
        have hle : coverCount done p.1 p.2 ≤ done.length := List.countP_le_length
        exact (Nat.succ_le_succ hle).trans (hdone.trans hf)
      have hcells := foldlM_coverNext_eq hf hin (r.cells_nodup.sublist (List.drop_sublist 1 _)) hfew
      simp only [Guarded.coverRegion, Guarded.proceed]
      rw [if_neg (by simp [hrow, hcol]), hcells, Guarded.ok_bind]
      simp only [mem_drop_cells hord, ← coverCount_append]
      rfl
  exact hrun

theorem Layout.validate_guarded (h : Layout g R) (hf : g.Fits) :
    Guarded.validate g = .ok g.validate := by
  have hg := h.stored hf
  have hi := h.indexed hf
  have hsize : g.cells.size = g.rows * g.cols := h.full
  have hzero : Array.replicate g.cells.size 0 = laidOut g.rows g.cols fun _ _ => 0 := by
    rw [hsize]
    apply Array.ext <;> simp [laidOut]
  have hfaults : ∀ p ∈ g.places,
      Guarded.cellFault? g (laidOut g.rows g.cols (coverCount g.regions)) p.1 p.2 = .ok none := by
    rintro ⟨row, col⟩ hp
    obtain ⟨hr, hc⟩ := mem_places.mp hp
    rw [Guarded.cellFault?, Guarded.offset_eq hr hc hf, Guarded.ok_bind, h.full.cells_eq,
      Guarded.read_laidOut hr hc, Guarded.ok_bind, Guarded.read_laidOut hr hc, Guarded.ok_bind,
      h.coverCount_eq hi, if_neg (not_not.mpr rfl)]
    by_cases hh : (g.cellAt row col).hidden = true
    · simp [h.eq_shadow_of_hidden hh]
    · simp [hh]
  have hnone : (g.places.findSome? fun _ => (none : Option DocumentFault)) = none :=
    List.findSome?_eq_none_iff.mpr fun _ _ => rfl
  rw [h.validate hf, Guarded.validate, Guarded.mul_eq hf, Guarded.ok_bind,
    if_neg (not_not.mpr hsize), hg.regions_eq, Guarded.ok_bind]
  simp only [hzero, h.foldlM_coverRegion_eq hf, Guarded.ok_bind, Guarded.proceed,
    Guarded.findSomeM?_eq hfaults, hnone]
  rfl

theorem Layout.checkTable_guarded (h : Layout g R) (hf : g.Fits)
    (hnext : ∀ axis, g.lineCount axis + 1 ≤ maxIndex) (hbraces : g.FewBraces)
    {columns : ColumnSpecs} (hcolumns : columns.length = g.cols) (dialect : Dialect)
    (o : TableOptions) :
    Guarded.checkTable g columns dialect o = .ok (checkTable g columns dialect o) := by
  have hrows : g.rows + 1 ≤ maxIndex := hnext .row
  have hcols : g.cols + 1 ≤ maxIndex := hnext .column
  have hencoding : Guarded.encodingDiagnostics g = .ok (encodingDiagnostics g) := by
    rw [Guarded.encodingDiagnostics, h.validate_guarded hf, h.validate hf, Guarded.ok_bind,
      encodingDiagnostics, h.fault?_eq_none (h.indexed hf)]
    rfl
  have hmapped : (columnDiagnostics dialect columns).mapM Guarded.numbered =
      .ok (columnDiagnostics dialect columns) := by
    apply Guarded.mapM_numbered_eq
    intro d hd
    obtain ⟨hrow, col, hcol, hcolumn⟩ := column_of_mem_columnDiagnostics hd
    rw [hrow, hcolumn]
    exact ⟨Nat.zero_le _, by rw [Option.getD_some]; omega⟩
  rw [Guarded.checkTable, hencoding, Guarded.ok_bind, hmapped, Guarded.ok_bind,
    gridDiagnostics_guarded (h.stored hf) (h.pos .column) (by omega) (by omega) hbraces]
  rfl

end Grid
end LatexTable
