import LatexTable.Column.Spec
import LatexTable.Decimal.Binary64
import LatexTable.Dialect
/-!
How a column is written in a dialect. A dialect without a kind of column writes the nearest kind it
has, and says so.
-/
namespace LatexTable
open Decimal

inductive ColumnMapping where
  | native
  | fallback (source target : ColumnKind)
  deriving DecidableEq, Repr

/-- A column as it is written: its token and the kind that the token stands for. -/
structure MappedColumn where
  token : String
  kind : ColumnKind
  mapping : ColumnMapping
  deriving DecidableEq, Repr

namespace MappedColumn

def native (kind : ColumnKind) (token : String) : MappedColumn := ⟨token, kind, .native⟩

def fallback (source target : ColumnKind) (token : String) : MappedColumn :=
  ⟨token, target, .fallback source target⟩

/-- A centred column, for a column that the registry lacks. -/
def centered : MappedColumn := native .center "c"

/-- The letter that aligns a cell like its column. -/
def alignLetter (c : MappedColumn) : Char :=
  match c.kind with
  | .left | .paragraph => 'l'
  | .right => 'r'
  | .center | .flexibleRatio | .flexibleFixed => 'c'

end MappedColumn

namespace ColumnSpec

/-- The width argument of a paragraph column: a bare number is a share of the line. -/
def paragraphWidth (width : String) : String :=
  if WidthKind.ofWidth? width = some .ratio then width ++ "\\linewidth" else width

def paragraphToken (width : String) : String := "p\x7b" ++ width ++ "\x7d"

def mapModern (s : ColumnSpec) : MappedColumn :=
  match s.kind, s.effectiveWidth? with
  | .left, _ => .native .left "l"
  | .center, _ => .native .center "c"
  | .right, _ => .native .right "r"
  | .flexibleRatio, none => .native .flexibleRatio "X"
  | .flexibleRatio, some w =>
    if WidthKind.ofWidth? w = some .ratio then .native .flexibleRatio ("X[" ++ w ++ "]")
    else .fallback .flexibleRatio .flexibleFixed ("Q[wd=" ++ w ++ "]")
  | .flexibleFixed, none => .fallback .flexibleFixed .flexibleRatio "X"
  | .flexibleFixed, some w =>
    if WidthKind.ofWidth? w = some .ratio then .fallback .flexibleFixed .flexibleRatio "X"
    else .native .flexibleFixed ("Q[wd=" ++ w ++ "]")
  | .paragraph, some w => .native .paragraph (paragraphToken (paragraphWidth w))
  | .paragraph, none => .fallback .paragraph .left "l"

/-- The weight of a flexible column among the others, when its width reads as a number. -/
def weight? (s : ColumnSpec) : Option Binary64 :=
  if s.kind = .flexibleRatio then s.effectiveWidth?.bind Binary64.read? else none

/-- The width of a flexible column as a share of the line, `total` being the sum of the weights. -/
def shareWidth (width : String) (total : Binary64) : String :=
  match WidthKind.ofWidth? width, Binary64.read? width with
  | some .ratio, some weight =>
    if total.isPositive then (weight.div total).shareText ++ "\\linewidth" else paragraphWidth width
  | _, _ => paragraphWidth width

def mapTabular (total : Binary64) (s : ColumnSpec) : MappedColumn :=
  match s.kind, s.effectiveWidth? with
  | .left, _ => .native .left "l"
  | .center, _ => .native .center "c"
  | .right, _ => .native .right "r"
  | .paragraph, some w => .native .paragraph (paragraphToken (paragraphWidth w))
  | .paragraph, none => .fallback .paragraph .left "l"
  | .flexibleRatio, some w =>
    .fallback .flexibleRatio .paragraph (paragraphToken (shareWidth w total))
  | .flexibleFixed, some w =>
    .fallback .flexibleFixed .paragraph (paragraphToken (paragraphWidth w))
  | .flexibleRatio, none => .fallback .flexibleRatio .center "c"
  | .flexibleFixed, none => .fallback .flexibleFixed .center "c"

end ColumnSpec

namespace ColumnSpecs

/-- The sum of the weights of all flexible columns. -/
def ratioTotal (specs : ColumnSpecs) : Binary64 :=
  Binary64.sum (specs.filterMap ColumnSpec.weight?)

def mapFor (dialect : Dialect) (specs : ColumnSpecs) : List MappedColumn :=
  match dialect with
  | .modern => specs.map ColumnSpec.mapModern
  | .plain | .rules => specs.map (ColumnSpec.mapTabular specs.ratioTotal)

/-- The mapped columns of a table with `cols` columns: those in excess are left out, those that lack
are centred. -/
def resolve (dialect : Dialect) (cols : Nat) (specs : ColumnSpecs) : List MappedColumn :=
  let mapped := (specs.mapFor dialect).take cols
  mapped ++ List.replicate (cols - mapped.length) .centered

end ColumnSpecs
end LatexTable
