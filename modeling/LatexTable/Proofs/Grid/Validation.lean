import LatexTable.Proofs.Grid.Encoding
/-!
Validation on any grid whatever, its spans and hidden cells in disorder. It counts the regions over
each place; what it accepts are exactly the grids whose visible cells tile them.
-/
namespace LatexTable.Grid

/-- The place `q` lies in the rectangle of the visible cell at `p`. A span of zero is read as one. -/
def Spans (g : Grid) (p q : Nat × Nat) : Prop :=
  (p.1 < g.rows ∧ p.2 < g.cols) ∧ (g.cellAt p.1 p.2).hidden = false ∧
    (p.1 ≤ q.1 ∧ q.1 < p.1 + max (g.cellAt p.1 p.2).rowSpan 1) ∧
      (p.2 ≤ q.2 ∧ q.2 < p.2 + max (g.cellAt p.1 p.2).colSpan 1)

/-- The rectangles of the visible cells tile the grid, and hidden cells are blank. -/
structure Tiled (g : Grid) : Prop where
  full : g.cells.size = g.rows * g.cols
  inside : ∀ row col, row < g.rows → col < g.cols → (g.cellAt row col).hidden = false →
    row + max (g.cellAt row col).rowSpan 1 ≤ g.rows ∧
      col + max (g.cellAt row col).colSpan 1 ≤ g.cols
  covered_once : ∀ row col, row < g.rows → col < g.cols → ∃! p, g.Spans p (row, col)
  hidden_shadow : ∀ c ∈ g.cells, c.hidden = true → c = .shadow

variable {g : Grid} {r : CellRange} {row col : Nat} {p : Nat × Nat}

theorem Fits.sides_le (hf : g.Fits) (hr : row < g.rows) (hc : col < g.cols) :
    g.rows ≤ maxIndex ∧ g.cols ≤ maxIndex := by
  have hrows : g.rows ≤ g.rows * g.cols := Nat.le_mul_of_pos_right _ (Nat.zero_lt_of_lt hc)
  have hcols : g.cols ≤ g.rows * g.cols := Nat.le_mul_of_pos_left _ (Nat.zero_lt_of_lt hr)
  exact ⟨hrows.trans hf, hcols.trans hf⟩

theorem Fits.index_le (hf : g.Fits) (hr : row < g.rows) (hc : col < g.cols) :
    row ≤ maxIndex ∧ col ≤ maxIndex :=
  ⟨hr.le.trans (hf.sides_le hr hc).1, hc.le.trans (hf.sides_le hr hc).2⟩

/-- No place of the grid lies behind the largest index, where footprints are cut off. -/
theorem covers_iff_spans (hf : g.Fits) (hr : row < g.rows) (hc : col < g.cols) :
    g.Covers p (row, col) ↔ g.Spans p (row, col) := by
  obtain ⟨hr', hc'⟩ := hf.index_le hr hc
  refine and_congr_right fun _ => and_congr_right fun _ => ?_
  simp only [Cell.footprint, CellRange.ofSpan, CellRange.contains_iff]
  omega

theorem footprint_inside_iff (hf : g.Fits) (hr : row < g.rows) (hc : col < g.cols) (c : Cell) :
    ((c.footprint row col).maxRow < g.rows ∧ (c.footprint row col).maxCol < g.cols) ↔
      row + max c.rowSpan 1 ≤ g.rows ∧ col + max c.colSpan 1 ≤ g.cols := by
  obtain ⟨hrows, hcols⟩ := hf.sides_le hr hc
  simp only [Cell.footprint, CellRange.ofSpan]
  omega

/-- A cell that does not span covers its own place and no other. -/
theorem footprint_of_not_isSpanning {c : Cell} (hs : c.isSpanning = false) (hr : row ≤ maxIndex)
    (hc : col ≤ maxIndex) : c.footprint row col = .single row col := by
  simp only [Cell.isSpanning, Bool.or_eq_false_iff, decide_eq_false_iff_not, not_lt] at hs
  simp only [Cell.footprint, CellRange.ofSpan, CellRange.single, CellRange.mk.injEq, true_and]
  omega

theorem contains_footprint_first (c : Cell) (hr : row ≤ maxIndex) (hc : col ≤ maxIndex) :
    (c.footprint row col).contains row col = true := by
  simp only [Cell.footprint, CellRange.ofSpan, CellRange.contains_iff]
  omega

/-- A visible cell covers its own place. -/
theorem covers_of_visible (hf : g.Fits) (hr : row < g.rows) (hc : col < g.cols)
    (hv : (g.cellAt row col).hidden = false) : g.Covers (row, col) (row, col) := by
  obtain ⟨hr', hc'⟩ := hf.index_le hr hc
  exact ⟨⟨hr, hc⟩, hv, contains_footprint_first _ hr' hc'⟩

theorem isMaster_iff {c : Cell} : c.isMaster = true ↔ c.hidden = false ∧ c.isSpanning = true := by
  simp [Cell.isMaster]

theorem footprint_mem_regions (hr : row < g.rows) (hc : col < g.cols)
    (hv : (g.cellAt row col).hidden = false) (hs : (g.cellAt row col).isSpanning = true) :
    (g.cellAt row col).footprint row col ∈ g.regions :=
  mem_regions_iff.mpr ⟨⟨hr, hc⟩, isMaster_iff.mpr ⟨hv, hs⟩, rfl⟩

/-- The first cell of a region covers its places. -/
theorem covers_of_mem_regions (hr : r ∈ g.regions) (hc : r.contains row col = true) :
    g.Covers (r.minRow, r.minCol) (row, col) := by
  obtain ⟨hin, hmaster, hfootprint⟩ := mem_regions_iff.mp hr
  exact ⟨hin, (isMaster_iff.mp hmaster).1, by rwa [hfootprint]⟩

/-- A visible cell that covers a place besides its own has a region. -/
theorem mem_regions_of_covers (hf : g.Fits) (h : g.Covers p (row, col)) (hne : p ≠ (row, col)) :
    (g.cellAt p.1 p.2).footprint p.1 p.2 ∈ g.regions := by
  obtain ⟨hin, hv, hc⟩ := h
  have hspanning : (g.cellAt p.1 p.2).isSpanning = true := by
    by_contra hs
    obtain ⟨hr', hc'⟩ := hf.index_le hin.1 hin.2
    rw [footprint_of_not_isSpanning (by simpa using hs) hr' hc', CellRange.contains_iff] at hc
    obtain ⟨⟨hrow, hrow'⟩, hcol, hcol'⟩ := hc
    exact hne (Prod.ext (le_antisymm hrow hrow') (le_antisymm hcol hcol'))
  exact footprint_mem_regions hin.1 hin.2 hv hspanning

theorem countP_eq_one_iff {α : Type} [DecidableEq α] {l : List α} {f : α → Bool} (hl : l.Nodup) :
    l.countP f = 1 ↔ ∃! a, a ∈ l ∧ f a = true := by
  constructor
  · intro h
    rw [List.countP_eq_length_filter, List.length_eq_one_iff] at h
    obtain ⟨a, ha⟩ := h
    have hmem (b : α) : b ∈ l ∧ f b = true ↔ b = a := by
      rw [← List.mem_filter, ha, List.mem_singleton]
    exact ⟨a, (hmem a).mpr rfl, fun b hb => (hmem b).mp hb⟩
  · rintro ⟨a, ⟨ha, hfa⟩, hunique⟩
    rw [← List.count_eq_one_of_mem hl ha]
    apply List.countP_congr
    intro b hb
    simp only [beq_iff_eq]
    exact ⟨fun hfb => hunique b ⟨hb, hfb⟩, fun hba => hba ▸ hfa⟩

/-- A visible cell stands alone at its place when no region is counted there. -/
theorem coverCount_eq_zero_iff (hf : g.Fits) (hr : row < g.rows) (hc : col < g.cols)
    (hv : (g.cellAt row col).hidden = false) :
    coverCount g.regions row col = 0 ↔ ∃! p, g.Covers p (row, col) := by
  have hself := covers_of_visible hf hr hc hv
  simp only [coverCount, List.countP_eq_zero, Bool.and_eq_true, Bool.not_eq_true', not_and,
    Bool.not_eq_false]
  constructor
  · refine fun hnone => ⟨(row, col), hself, fun p hp => ?_⟩
    by_contra hne
    have hstarts := hnone _ (mem_regions_of_covers hf hp hne) hp.2.2
    obtain ⟨hrow, hcol⟩ := CellRange.startsAt_iff.mp hstarts
    exact hne (Prod.ext hrow hcol)
  · rintro hunique r hr' hcontains
    have hfirst := hunique.unique (covers_of_mem_regions hr' hcontains) hself
    exact CellRange.startsAt_iff.mpr (Prod.mk.inj hfirst)

/-- A hidden cell is covered by a region, since no hidden cell covers anything. -/
theorem coverCount_eq_one_iff (hf : g.Fits) (hh : (g.cellAt row col).hidden = true) :
    coverCount g.regions row col = 1 ↔ ∃! p, g.Covers p (row, col) := by
  have hregion {p : Nat × Nat} (hp : g.Covers p (row, col)) :
      (g.cellAt p.1 p.2).footprint p.1 p.2 ∈ g.regions ∧
        ((g.cellAt p.1 p.2).footprint p.1 p.2).startsAt row col = false := by
    have hne : p ≠ (row, col) := by
      rintro rfl
      simp [hp.2.1] at hh
    refine ⟨mem_regions_of_covers hf hp hne, ?_⟩
    rw [← Bool.not_eq_true, CellRange.startsAt_iff]
    exact fun hfirst => hne (Prod.ext hfirst.1 hfirst.2)
  rw [coverCount, countP_eq_one_iff g.regions_nodup]
  simp only [Bool.and_eq_true, Bool.not_eq_true']
  constructor
  · rintro ⟨r, ⟨hr, hcontains, -⟩, hunique⟩
    refine ⟨(r.minRow, r.minCol), covers_of_mem_regions hr hcontains, fun p hp => ?_⟩
    obtain ⟨hmem, hstarts⟩ := hregion hp
    rw [← hunique _ ⟨hmem, hp.2.2, hstarts⟩]
    rfl
  · rintro ⟨p, hp, hunique⟩
    obtain ⟨hmem, hstarts⟩ := hregion hp
    refine ⟨_, ⟨hmem, hp.2.2, hstarts⟩, ?_⟩
    rintro s ⟨hs, hcontains, -⟩
    obtain rfl := hunique _ (covers_of_mem_regions hs hcontains)
    exact (mem_regions_iff.mp hs).2.2.symm

/-- The count of a place is right exactly when one visible cell covers it. -/
theorem coverCount_eq_iff (hf : g.Fits) (hr : row < g.rows) (hc : col < g.cols) :
    coverCount g.regions row col = (if (g.cellAt row col).hidden then 1 else 0) ↔
      ∃! p, g.Covers p (row, col) := by
  cases hh : (g.cellAt row col).hidden with
  | true => exact coverCount_eq_one_iff hf hh
  | false => exact coverCount_eq_zero_iff hf hr hc hh

/-- Single cells never leave the grid, so the regions are enough to look at. -/
theorem regions_inside_iff (hf : g.Fits) :
    (∀ r ∈ g.regions, r.maxRow < g.rows ∧ r.maxCol < g.cols) ↔
      ∀ row col, row < g.rows → col < g.cols → (g.cellAt row col).hidden = false →
        row + max (g.cellAt row col).rowSpan 1 ≤ g.rows ∧
          col + max (g.cellAt row col).colSpan 1 ≤ g.cols := by
  constructor
  · intro h row col hr hc hv
    cases hs : (g.cellAt row col).isSpanning with
    | true =>
      exact (footprint_inside_iff hf hr hc _).mp (h _ (footprint_mem_regions hr hc hv hs))
    | false =>
      simp only [Cell.isSpanning, Bool.or_eq_false_iff, decide_eq_false_iff_not, not_lt] at hs
      omega
  · intro h r hr
    obtain ⟨hin, hmaster, hfootprint⟩ := mem_regions_iff.mp hr
    have hinside := h _ _ hin.1 hin.2 (isMaster_iff.mp hmaster).1
    rwa [← footprint_inside_iff hf hin.1 hin.2, hfootprint] at hinside

/-- The cells of the store are those of the places. -/
theorem Full.forall_cells_iff (h : g.Full) {P : Cell → Prop} :
    (∀ c ∈ g.cells, P c) ↔ ∀ row col, row < g.rows → col < g.cols → P (g.cellAt row col) := by
  constructor
  · intro hall row col hr hc
    have hget := h.get?_eq hr hc
    simp only [get?, hr, hc, decide_true, Bool.and_self, if_true] at hget
    exact hall _ (Array.mem_of_getElem? hget)
  · intro hall c hc
    obtain ⟨row, col, hr, hc', rfl⟩ := h.exists_cellAt hc
    exact hall row col hr hc'

/-- Validation accepts a grid exactly when its visible cells tile it and its hidden cells are
blank. -/
theorem validate_eq_ok_iff_tiled (hf : g.Fits) : g.validate = .ok () ↔ g.Tiled := by
  rw [validate_eq_ok, fault?_eq_none_iff, regions_inside_iff hf]
  have hcount {row col : Nat} (hr : row < g.rows) (hc : col < g.cols) :
      coverCount g.regions row col = (if (g.cellAt row col).hidden then 1 else 0) ↔
        ∃! p, g.Spans p (row, col) :=
    (coverCount_eq_iff hf hr hc).trans (existsUnique_congr fun _ => covers_iff_spans hf hr hc)
  constructor
  · rintro ⟨hfull, hinside, hcells⟩
    refine ⟨hfull, hinside, fun row col hr hc => ?_, ?_⟩
    · exact (hcount hr hc).mp (cellFault?_eq_none_iff.mp (hcells row col hr hc)).1
    · exact (Full.forall_cells_iff hfull).mpr fun row col hr hc =>
        (cellFault?_eq_none_iff.mp (hcells row col hr hc)).2
  · rintro ⟨hfull, hinside, hcovered, hhidden⟩
    refine ⟨hfull, hinside, fun row col hr hc => cellFault?_eq_none_iff.mpr ⟨?_, ?_⟩⟩
    · exact (hcount hr hc).mpr (hcovered row col hr hc)
    · exact (Full.forall_cells_iff hfull).mp hhidden row col hr hc

theorem validate_eq_ok_iff_tiled_zero_span :
    let g : Grid := ⟨2, 2, #[{ text := "a", rowSpan := 0, colSpan := 2 }, .shadow,
      { rowSpan := 1, colSpan := 0 }, .ofText "b"]⟩
    let h : Grid := ⟨1, 2, #[{ colSpan := maxIndex }, .shadow]⟩
    g.Fits ∧ g.validate = .ok () ∧ g.Tiled ∧ h.Fits ∧ ¬h.Tiled := by
  intro g h
  have hg : g.Fits := by decide
  have hvalid : g.validate = .ok () := by decide
  have hh : h.Fits := by decide
  have hinvalid : h.validate ≠ .ok () := by decide
  exact ⟨hg, hvalid, (validate_eq_ok_iff_tiled hg).mp hvalid, hh,
    fun htiled => hinvalid ((validate_eq_ok_iff_tiled hh).mpr htiled)⟩

end LatexTable.Grid
