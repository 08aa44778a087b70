import LatexTable.Dialect
import LatexTable.Grid.Basic
import LatexTable.Latex.Source
import LatexTable.Options
/-! The LaTeX packages that a table needs, in the order in which the need arises. -/
namespace LatexTable

structure Package where
  name : String
  options : List String := []
  deriving DecidableEq, Repr

namespace Package

/-- The preamble line that loads the package. -/
def line (p : Package) : String :=
  let options := if p.options.isEmpty then "" else Latex.bracketed (",".intercalate p.options)
  "\\usepackage" ++ options ++ Latex.braced p.name

/-- Adds an option that the package does not have yet. -/
def withOption (p : Package) (option : String) : Package :=
  if p.options.contains option then p else { p with options := p.options ++ [option] }

end Package

/-- What a table asks for: a package, or an option of it. -/
structure Requirement where
  package : String
  option : Option String := none
  deriving DecidableEq, Repr

namespace Requirement

/-- Adds a requirement to the packages so far; a package and an option appear once. -/
def addTo (packages : List Package) (r : Requirement) : List Package :=
  let packages :=
    if packages.any (·.name = r.package) then packages else packages ++ [{ name := r.package }]
  match r.option with
  | none => packages
  | some option =>
    packages.map fun p => if p.name = r.package then p.withOption option else p

end Requirement

def dialectRequirements (g : Grid) (dialect : Dialect) (o : TableOptions) : List Requirement :=
  let spanning :=
    (if o.longTable then [⟨"longtable", none⟩] else []) ++
      (if g.regions.any fun r => 1 < r.rowCount then [⟨"multirow", none⟩] else [])
  match dialect with
  | .modern => [⟨"tabularray", none⟩]
  | .plain => spanning
  | .rules => ⟨"booktabs", none⟩ :: spanning

def colorRequirements (color : Color) : List Requirement :=
  if color.needsDvipsNames then [⟨"xcolor", some "dvipsnames"⟩] else []

/-- A background outside the modern dialect is a fill command, which an option of the colour package
brings along. -/
def cellRequirements (dialect : Dialect) (c : Cell) : List Requirement :=
  if c.hidden then []
  else
    (match c.style.foreground with
      | none => []
      | some color => ⟨"xcolor", none⟩ :: colorRequirements color) ++
    (match c.style.background with
      | none => []
      | some color =>
        ⟨"xcolor", if dialect = .modern then none else some "table"⟩ :: colorRequirements color)

def requiredPackages (g : Grid) (dialect : Dialect) (o : TableOptions) : List Package :=
  (dialectRequirements g dialect o ++ g.rowList.flatten.flatMap (cellRequirements dialect)).foldl
    Requirement.addTo []

def packageLines (g : Grid) (dialect : Dialect) (o : TableOptions) : List String :=
  (requiredPackages g dialect o).map Package.line

end LatexTable
