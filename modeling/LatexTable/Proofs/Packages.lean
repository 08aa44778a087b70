import LatexTable.Packages
import LatexTable.Proofs.Color
import LatexTable.Proofs.Grid.View
import Mathlib.Data.List.Nodup
/-!
The list of packages. A requirement adds its package and its option where they lack and changes
nothing else, so the list holds what is required, and each of it once.
-/
namespace LatexTable

/-- The package is in the list. -/
def Listed (packages : List Package) (name : String) : Prop := ∃ p ∈ packages, p.name = name

/-- The package is in the list with the option. -/
def ListedWith (packages : List Package) (name option : String) : Prop :=
  ∃ p ∈ packages, p.name = name ∧ option ∈ p.options

/-- No package stands twice in the list, and no option twice in a package. -/
structure ListedOnce (packages : List Package) : Prop where
  names : (packages.map Package.name).Nodup
  options : ∀ p ∈ packages, p.options.Nodup

variable {packages : List Package} {p : Package} {r : Requirement} {rs : List Requirement}
  {name option added : String} {g : Grid} {dialect : Dialect} {o : TableOptions} {c : Cell}

namespace Package

@[simp] theorem name_withOption : (p.withOption added).name = p.name := by
  unfold withOption
  split <;> rfl

@[simp] theorem mem_withOption :
    option ∈ (p.withOption added).options ↔ option ∈ p.options ∨ option = added := by
  unfold withOption
  split
  next hold =>
    rw [List.contains_iff_mem] at hold
    exact ⟨.inl, fun h => h.elim id fun h => h ▸ hold⟩
  next => simp

theorem nodup_withOption (h : p.options.Nodup) : (p.withOption added).options.Nodup := by
  unfold withOption
  split
  · exact h
  next hnew =>
    rw [List.contains_iff_mem] at hnew
    refine List.nodup_append.mpr ⟨h, List.nodup_singleton _, ?_⟩
    rintro a ha b hb rfl
    exact hnew (List.mem_singleton.mp hb ▸ ha)

end Package

namespace Requirement

/-- The packages with that of the requirement among them. -/
def named (packages : List Package) (r : Requirement) : List Package :=
  if packages.any (·.name = r.package) then packages else packages ++ [{ name := r.package }]

/-- The package with the option of the requirement, if it is the one required. -/
def extend (r : Requirement) (p : Package) : Package :=
  match r.option with
  | none => p
  | some option => if p.name = r.package then p.withOption option else p

theorem addTo_eq (packages : List Package) (r : Requirement) :
    addTo packages r = (named packages r).map r.extend := by
  unfold addTo extend named
  cases r.option with
  | none => exact (List.map_id' _).symm
  | some option => rfl

@[simp] theorem name_extend : (r.extend p).name = p.name := by
  unfold extend
  split
  · rfl
  · split <;> simp

@[simp] theorem mem_extend : option ∈ (r.extend p).options ↔
    option ∈ p.options ∨ r.package = p.name ∧ r.option = some option := by
  unfold extend
  cases r.option with
  | none => simp
  | some added =>
    by_cases hname : p.name = r.package
    · simp [hname, eq_comm]
    · simp [hname, Ne.symm hname]

theorem mem_named : p ∈ named packages r ↔
    p ∈ packages ∨ ¬Listed packages r.package ∧ p = { name := r.package } := by
  have hany : packages.any (·.name = r.package) = true ↔ Listed packages r.package := by
    simp [Listed]
  unfold named
  split
  next hlisted => simp [hany.mp hlisted]
  next hnew =>
    rw [hany] at hnew
    simp [hnew]

theorem listed_named :
    Listed (named packages r) name ↔ Listed packages name ∨ r.package = name := by
  simp only [Listed, mem_named]
  constructor
  · rintro ⟨p, hp | ⟨-, rfl⟩, hname⟩
    · exact .inl ⟨p, hp, hname⟩
    · exact .inr hname
  · rintro (⟨p, hp, hname⟩ | rfl)
    · exact ⟨p, .inl hp, hname⟩
    · by_cases hold : ∃ p ∈ packages, p.name = r.package
      · obtain ⟨p, hp, hname⟩ := hold
        exact ⟨p, .inl hp, hname⟩
      · exact ⟨_, .inr ⟨hold, rfl⟩, rfl⟩

theorem listed_addTo :
    Listed (addTo packages r) name ↔ Listed packages name ∨ r.package = name := by
  rw [← listed_named, addTo_eq]
  simp [Listed]

theorem listedWith_addTo : ListedWith (addTo packages r) name option ↔
    ListedWith packages name option ∨ r.package = name ∧ r.option = some option := by
  simp only [ListedWith, addTo_eq, List.mem_map, exists_exists_and_eq_and, name_extend, mem_extend]
  constructor
  · rintro ⟨p, hp, rfl, hold | hnew⟩
    · rcases mem_named.mp hp with hp | ⟨-, rfl⟩
      · exact .inl ⟨p, hp, rfl, hold⟩
      · cases hold
    · exact .inr hnew
  · rintro (⟨p, hp, rfl, hold⟩ | ⟨rfl, hoption⟩)
    · exact ⟨p, mem_named.mpr (.inl hp), rfl, .inl hold⟩
    · obtain ⟨p, hp, hname⟩ : Listed (named packages r) r.package := listed_named.mpr (.inr rfl)
      exact ⟨p, hp, hname, .inr ⟨hname.symm, hoption⟩⟩

theorem nodup_extend (h : p.options.Nodup) : (r.extend p).options.Nodup := by
  unfold extend
  split
  · exact h
  · split
    · exact Package.nodup_withOption h
    · exact h

theorem listedOnce_named (h : ListedOnce packages) : ListedOnce (named packages r) := by
  constructor
  · unfold named
    split
    · exact h.names
    next hnew =>
      rw [List.map_append, List.nodup_append]
      refine ⟨h.names, List.nodup_singleton _, ?_⟩
      rintro a ha b hb rfl
      obtain ⟨p, hp, hname⟩ := List.mem_map.mp ha
      have hb : a = r.package := List.mem_singleton.mp hb
      exact hnew (List.any_eq_true.mpr ⟨p, hp, by simp [hname, hb]⟩)
  · intro p hp
    rcases mem_named.mp hp with hp | ⟨-, rfl⟩
    · exact h.options p hp
    · exact List.nodup_nil

theorem listedOnce_addTo (h : ListedOnce packages) : ListedOnce (addTo packages r) := by
  have hnamed := listedOnce_named (r := r) h
  rw [addTo_eq]
  constructor
  · have hnames : ((named packages r).map r.extend).map Package.name =
        (named packages r).map Package.name := by simp [Function.comp_def]
    rw [hnames]
    exact hnamed.names
  · intro q hq
    obtain ⟨p, hp, rfl⟩ := List.mem_map.mp hq
    exact nodup_extend (hnamed.options p hp)

theorem listed_foldl : Listed (rs.foldl addTo packages) name ↔
    Listed packages name ∨ ∃ r ∈ rs, r.package = name := by
  induction rs generalizing packages with
  | nil => simp
  | cons r rs ih =>
    rw [List.foldl_cons, ih, listed_addTo, or_assoc]
    simp

theorem listedWith_foldl : ListedWith (rs.foldl addTo packages) name option ↔
    ListedWith packages name option ∨ ∃ r ∈ rs, r.package = name ∧ r.option = some option := by
  induction rs generalizing packages with
  | nil => simp
  | cons r rs ih =>
    rw [List.foldl_cons, ih, listedWith_addTo, or_assoc]
    simp

theorem listedOnce_foldl (h : ListedOnce packages) : ListedOnce (rs.foldl addTo packages) := by
  induction rs generalizing packages with
  | nil => exact h
  | cons r rs ih => exact ih (listedOnce_addTo h)

end Requirement

section Required

theorem listedOnce_requiredPackages (g : Grid) (dialect : Dialect) (o : TableOptions) :
    ListedOnce (requiredPackages g dialect o) :=
  Requirement.listedOnce_foldl ⟨List.nodup_nil, nofun⟩

theorem eq_requirement_iff {required : Option String} :
    r = ⟨name, required⟩ ↔ r.package = name ∧ r.option = required := by
  cases r
  simp

theorem mem_colorRequirements {color : Color} : r ∈ colorRequirements color ↔
    color.needsDvipsNames = true ∧ r.package = "xcolor" ∧ r.option = some "dvipsnames" := by
  unfold colorRequirements
  split <;> simp_all [eq_requirement_iff]

/-- What a colour requires, `use` being the option that its use asks for. -/
def colorUse (color? : Option Color) (use : Option String) : List Requirement :=
  (color?.map fun color => ⟨"xcolor", use⟩ :: colorRequirements color).getD []

theorem cellRequirements_eq (dialect : Dialect) (c : Cell) : cellRequirements dialect c =
    if c.hidden then []
    else colorUse c.style.foreground none ++
      colorUse c.style.background (if dialect = .modern then none else some "table") := by
  unfold cellRequirements colorUse
  cases c.style.foreground <;> cases c.style.background <;> rfl

theorem mem_colorUse {color? : Option Color} {use : Option String} :
    r ∈ colorUse color? use ↔ r.package = "xcolor" ∧ ∃ color, color? = some color ∧
      (r.option = use ∨ color.needsDvipsNames = true ∧ r.option = some "dvipsnames") := by
  cases color? with
  | none => simp [colorUse]
  | some color =>
    simp only [colorUse, Option.map_some, Option.getD_some, List.mem_cons, eq_requirement_iff,
      mem_colorRequirements, Option.some.injEq, exists_eq_left']
    tauto

theorem mem_cellRequirements : r ∈ cellRequirements dialect c ↔ c.hidden = false ∧
    (r ∈ colorUse c.style.foreground none ∨
      r ∈ colorUse c.style.background (if dialect = .modern then none else some "table")) := by
  rw [cellRequirements_eq]
  cases c.hidden <;> simp

theorem package_cellRequirements (h : r ∈ cellRequirements dialect c) : r.package = "xcolor" :=
  (mem_cellRequirements.mp h).2.elim (fun h => (mem_colorUse.mp h).1) fun h => (mem_colorUse.mp h).1

theorem mem_requirements : r ∈ dialectRequirements g dialect o ++
      g.rowList.flatten.flatMap (cellRequirements dialect) ↔
    r ∈ dialectRequirements g dialect o ∨ ∃ row < g.rows, ∃ col < g.cols,
      r ∈ cellRequirements dialect (g.cellAt row col) := by
  simp only [List.mem_append, List.mem_flatMap, Grid.mem_flatten_rowList]
  refine or_congr_right ⟨?_, ?_⟩
  · rintro ⟨_, ⟨row, hr, col, hc, rfl⟩, hmem⟩
    exact ⟨row, hr, col, hc, hmem⟩
  · rintro ⟨row, hr, col, hc, hmem⟩
    exact ⟨_, ⟨row, hr, col, hc, rfl⟩, hmem⟩

/-- What the dialect requires, without options. -/
theorem mem_dialectRequirements : r ∈ dialectRequirements g dialect o ↔ r.option = none ∧
    ((dialect = .modern ∧ r.package = "tabularray") ∨ (dialect = .rules ∧ r.package = "booktabs") ∨
      (dialect ≠ .modern ∧ o.longTable = true ∧ r.package = "longtable") ∨
        (dialect ≠ .modern ∧ (∃ region ∈ g.regions, 1 < region.rowCount) ∧
          r.package = "multirow")) := by
  have hif (b : Bool) (package : String) : r ∈ (if b then [⟨package, none⟩] else []) ↔
      b = true ∧ r.package = package ∧ r.option = none := by
    cases b <;> simp [eq_requirement_iff]
  have hspanning : r ∈ (if o.longTable then [⟨"longtable", none⟩] else []) ++
      (if g.regions.any fun region => 1 < region.rowCount then [⟨"multirow", none⟩] else []) ↔
        r.option = none ∧ ((o.longTable = true ∧ r.package = "longtable") ∨
          ((∃ region ∈ g.regions, 1 < region.rowCount) ∧ r.package = "multirow")) := by
    rw [List.mem_append, hif, hif, List.any_eq_true]
    simp only [decide_eq_true_eq]
    tauto
  unfold dialectRequirements
  cases dialect with
  | modern => simp [eq_requirement_iff, and_comm]
  | plain => exact hspanning.trans (by simp)
  | rules =>
    refine List.mem_cons.trans ((or_congr eq_requirement_iff hspanning).trans ?_)
    rw [and_comm, ← and_or_left]
    simp

/-- A package is listed for the dialect, or it is that of colours and a visible cell has one. -/
theorem listed_iff : Listed (requiredPackages g dialect o) name ↔
    ((dialect = .modern ∧ name = "tabularray") ∨ (dialect = .rules ∧ name = "booktabs") ∨
      (dialect ≠ .modern ∧ o.longTable = true ∧ name = "longtable") ∨
        (dialect ≠ .modern ∧ (∃ region ∈ g.regions, 1 < region.rowCount) ∧ name = "multirow")) ∨
      name = "xcolor" ∧ ∃ color, g.HasColor color := by
  rw [requiredPackages, Requirement.listed_foldl]
  simp only [mem_requirements]
  constructor
  · rintro (⟨p, hp, -⟩ | ⟨r, hr | ⟨row, hrow, col, hcol, hr⟩, rfl⟩)
    · cases hp
    · exact .inl (mem_dialectRequirements.mp hr).2
    · obtain ⟨hvisible, h | h⟩ := mem_cellRequirements.mp hr
      · obtain ⟨hname, color, h, -⟩ := mem_colorUse.mp h
        exact .inr ⟨hname, color, row, hrow, col, hcol, hvisible, .inl h⟩
      · obtain ⟨hname, color, h, -⟩ := mem_colorUse.mp h
        exact .inr ⟨hname, color, row, hrow, col, hcol, hvisible, .inr h⟩
  · rintro (h | ⟨rfl, color, row, hrow, col, hcol, hvisible, h⟩)
    · exact .inr ⟨⟨name, none⟩, .inl (mem_dialectRequirements.mpr ⟨rfl, h⟩), rfl⟩
    · rcases h with h | h
      · refine .inr ⟨⟨"xcolor", none⟩, .inr ⟨row, hrow, col, hcol, ?_⟩, rfl⟩
        exact mem_cellRequirements.mpr
          ⟨hvisible, .inl (mem_colorUse.mpr ⟨rfl, color, h, .inl rfl⟩)⟩
      · refine .inr ⟨⟨"xcolor", if dialect = .modern then none else some "table"⟩,
          .inr ⟨row, hrow, col, hcol, ?_⟩, rfl⟩
        exact mem_cellRequirements.mpr
          ⟨hvisible, .inr (mem_colorUse.mpr ⟨rfl, color, h, .inl rfl⟩)⟩

/-- Only cells require an option. -/
theorem listedWith_iff : ListedWith (requiredPackages g dialect o) name option ↔
    name = "xcolor" ∧ ∃ row < g.rows, ∃ col < g.cols,
      ⟨name, some option⟩ ∈ cellRequirements dialect (g.cellAt row col) := by
  rw [requiredPackages, Requirement.listedWith_foldl]
  simp only [mem_requirements]
  constructor
  · rintro (⟨p, hp, -⟩ | ⟨r, hr | ⟨row, hrow, col, hcol, hr⟩, hname, hoption⟩)
    · cases hp
    · rw [(mem_dialectRequirements.mp hr).1] at hoption
      cases hoption
    · obtain rfl := eq_requirement_iff.mpr ⟨hname, hoption⟩
      exact ⟨package_cellRequirements hr, row, hrow, col, hcol, hr⟩
  · rintro ⟨-, row, hrow, col, hcol, hr⟩
    exact .inr ⟨_, .inr ⟨row, hrow, col, hcol, hr⟩, rfl, rfl⟩

theorem listedWith_table_iff : ListedWith (requiredPackages g dialect o) "xcolor" "table" ↔
    dialect ≠ .modern ∧ ∃ row < g.rows, ∃ col < g.cols, (g.cellAt row col).hidden = false ∧
      (g.cellAt row col).style.background.isSome = true := by
  have hcell (c : Cell) : ⟨"xcolor", some "table"⟩ ∈ cellRequirements dialect c ↔
      dialect ≠ .modern ∧ c.hidden = false ∧ c.style.background.isSome = true := by
    rw [mem_cellRequirements, mem_colorUse, mem_colorUse, Option.isSome_iff_exists]
    by_cases hd : dialect = .modern <;> simp [hd]
  simp only [listedWith_iff, hcell, true_and]
  tauto

theorem listedWith_dvipsnames_iff :
    ListedWith (requiredPackages g dialect o) "xcolor" "dvipsnames" ↔
      ∃ color, g.HasColor color ∧ color.needsDvipsNames = true := by
  have hcell (c : Cell) : ⟨"xcolor", some "dvipsnames"⟩ ∈ cellRequirements dialect c ↔
      c.hidden = false ∧ ∃ color, (c.style.foreground = some color ∨
        c.style.background = some color) ∧ color.needsDvipsNames = true := by
    rw [mem_cellRequirements, mem_colorUse, mem_colorUse]
    by_cases hd : dialect = .modern <;> simp [hd, or_and_right, exists_or]
  simp only [listedWith_iff, hcell, true_and]
  constructor
  · rintro ⟨row, hrow, col, hcol, hvisible, color, hcolor, hname⟩
    exact ⟨color, ⟨row, hrow, col, hcol, hvisible, hcolor⟩, hname⟩
  · rintro ⟨color, ⟨row, hrow, col, hcol, hvisible, hcolor⟩, hname⟩
    exact ⟨row, hrow, col, hcol, hvisible, color, hcolor, hname⟩

end Required

end LatexTable
