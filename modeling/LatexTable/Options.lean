import LatexTable.Text.Blank
/-! Options of a table, and the float or centring environment around it. -/
namespace LatexTable
open Text

structure TableOptions where
  caption : Option String := none
  label : Option String := none
  longTable : Bool := false
  horizontalRules : Bool := true
  verticalRules : Bool := true
  centering : Bool := true
  theme : Option String := none
  deriving DecidableEq, Repr

namespace TableOptions

def default : TableOptions := {}

/-- No rules but the typographic ones. -/
def booktabs : TableOptions := { horizontalRules := false, verticalRules := false }

/-- A table that may run over pages. -/
def long : TableOptions := { longTable := true }

def captionText? (o : TableOptions) : Option String := o.caption.bind nonBlank?

/-- The label, which needs a caption to refer to. -/
def labelText? (o : TableOptions) : Option String :=
  if o.captionText?.isSome then o.label.bind nonBlank? else none

def themeName? (o : TableOptions) : Option String := o.theme.bind nonBlank?

/-- Whether the table goes into a float. -/
def wantsFloat (o : TableOptions) : Bool := !o.longTable && o.captionText?.isSome

end TableOptions
end LatexTable
