import LatexTable.Column.Width
import LatexTable.Text.Letters
import LatexTable.InPlace
/-! The registry of columns: a kind and an optional width for each. -/
namespace LatexTable
open Text

inductive ColumnKind where
  | left | center | right | flexibleRatio | flexibleFixed | paragraph
  deriving DecidableEq, Repr

namespace ColumnKind

def name : ColumnKind → String
  | .left => "left"
  | .center => "center"
  | .right => "right"
  | .flexibleRatio => "flexible-ratio"
  | .flexibleFixed => "flexible-fixed"
  | .paragraph => "paragraph"

def ofName? (s : String) : Option ColumnKind :=
  match nameKey s with
  | "left" | "l" => some .left
  | "center" | "centre" | "c" => some .center
  | "right" | "r" => some .right
  | "flexible-ratio" | "ratio" | "x" => some .flexibleRatio
  | "flexible-fixed" | "fixed" => some .flexibleFixed
  | "paragraph" | "p" => some .paragraph
  | _ => none

/-- Whether a width means anything for the kind. -/
def usesWidth : ColumnKind → Bool
  | .flexibleRatio | .flexibleFixed | .paragraph => true
  | .left | .center | .right => false

end ColumnKind

/-- The width is kept even when the kind ignores it, so that a later change of kind finds it. -/
structure ColumnSpec where
  kind : ColumnKind := .center
  width : Option String := none
  deriving DecidableEq, Repr

namespace ColumnSpec

def default : ColumnSpec := {}

/-- The width, when the kind uses it and it is not blank. -/
def effectiveWidth? (s : ColumnSpec) : Option String :=
  if s.kind.usesWidth then s.width.bind nonBlank? else none

end ColumnSpec

abbrev ColumnSpecs := List ColumnSpec

namespace ColumnSpecs

def blank (n : Nat) : ColumnSpecs := List.replicate n .default

def outOfBounds (specs : ColumnSpecs) (col : Nat) : TableError := .outOfBounds 0 col 0 specs.length

def check (specs : ColumnSpecs) (col : Nat) : TableResult Unit :=
  if col < specs.length then .ok () else .error (specs.outOfBounds col)

def pushDefault (specs : ColumnSpecs) : ColumnSpecs := specs ++ [.default]

/-- Inserts a default column before `pos`. -/
def insertDefaultInPlace (specs : ColumnSpecs) (pos : Nat) : TableResult Unit × ColumnSpecs :=
  InPlace.perform specs do
    if specs.length < pos then throw (specs.outOfBounds pos)
    else modify fun specs => specs.take pos ++ .default :: specs.drop pos

def insertDefault (specs : ColumnSpecs) (pos : Nat) : TableResult ColumnSpecs :=
  InPlace.changed (specs.insertDefaultInPlace pos)

def removeInPlace (specs : ColumnSpecs) (col : Nat) : TableResult Unit × ColumnSpecs :=
  InPlace.perform specs do
    InPlace.ask (·.check col)
    modify (·.eraseIdx col)

def remove (specs : ColumnSpecs) (col : Nat) : TableResult ColumnSpecs :=
  InPlace.changed (specs.removeInPlace col)

def setKindInPlace (specs : ColumnSpecs) (col : Nat) (kind : ColumnKind) :
    TableResult Unit × ColumnSpecs := InPlace.perform specs do
  InPlace.ask (·.check col)
  modify (·.modify col fun s => { s with kind })

def setKind (specs : ColumnSpecs) (col : Nat) (kind : ColumnKind) : TableResult ColumnSpecs :=
  InPlace.changed (specs.setKindInPlace col kind)

/-- Sets a width without its surrounding white space, or clears it when nothing is left. -/
def setWidthInPlace (specs : ColumnSpecs) (col : Nat) (width : Option String) :
    TableResult Unit × ColumnSpecs := InPlace.perform specs do
  InPlace.ask (·.check col)
  match width.bind nonBlank? with
  | none => modify (·.modify col fun s => { s with width := none })
  | some w =>
    if (WidthKind.ofWidth? w).isNone then throw (.invalidDimension w)
    else modify (·.modify col fun s => { s with width := some w })

def setWidth (specs : ColumnSpecs) (col : Nat) (width : Option String) : TableResult ColumnSpecs :=
  InPlace.changed (specs.setWidthInPlace col width)

end ColumnSpecs
end LatexTable
