import LatexTable.Text.DecimalDigits
import LatexTable.Text.Blank
/-! The widths of columns: a number alone is a share, a number with a unit is a dimension. -/
namespace LatexTable
open Text

inductive WidthKind where
  | dimension | ratio
  deriving DecidableEq, Repr

namespace WidthKind

def units : List String :=
  ["pt", "mm", "cm", "in", "em", "ex", "bp", "pc", "dd", "cc", "sp",
   "\\linewidth", "\\textwidth", "\\columnwidth"]

/-- A number: digits, digits with a point and digits, or a point and digits. -/
def isNumber (cs : List Char) : Bool :=
  let whole := cs.takeWhile isDecimalDigit
  match cs.dropWhile isDecimalDigit with
  | [] => !whole.isEmpty
  | c :: fraction => c = '.' && !fraction.isEmpty && fraction.all isDecimalDigit

/-- The longest beginning that can belong to a number. -/
def numberPart (cs : List Char) : List Char := cs.takeWhile fun c => isDecimalDigit c || c = '.'

/-- A number, white space, a unit. No unit begins with a digit, a point or white space, so the three
parts can be cut one after the other. -/
def isDimension (cs : List Char) : Bool :=
  let rest := cs.dropWhile fun c => isDecimalDigit c || c = '.'
  isNumber (numberPart cs) && units.contains (String.ofList (dropBlanks rest))

def ofWidth? (width : String) : Option WidthKind :=
  let cs := (trim width).toList
  if isDimension cs then some .dimension
  else if isNumber cs then some .ratio
  else none

end WidthKind
end LatexTable
