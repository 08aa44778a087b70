/-! Why an operation on a table is refused, and the wording of each refusal. -/
namespace LatexTable

/-- The largest index or span: the largest number of 64 bits. -/
def maxIndex : Nat := 18446744073709551615

inductive Axis where
  | row | column
  deriving DecidableEq, Repr

def Axis.name : Axis → String
  | .row => "row"
  | .column => "column"

/-- What makes a table or a table document inconsistent. -/
inductive DocumentFault where
  | cellCount (found rows cols : Nat)
  | spansOutside (row col : Nat)
  | coveredBy (row col regions : Nat)
  | shadowCarriesData (row col : Nat)
  | columnCount (found cols : Nat)
  | mergeTooLarge (row col rows cols : Nat)
  | mergeOverlap (row col otherRow otherCol : Nat)
  | coveredStyle (row col : Nat)
  | noRecords
  | unknownFormat (path : String)
  | unreadableText
  | unwritableText
  deriving DecidableEq, Repr

def DocumentFault.message : DocumentFault → String
  | .cellCount found rows cols => s!"{found} cells stored for a {rows}x{cols} grid"
  | .spansOutside row col => s!"cell ({row}, {col}) spans outside the grid"
  | .coveredBy row col regions => s!"cell ({row}, {col}) is covered by {regions} regions"
  | .shadowCarriesData row col => s!"hidden cell ({row}, {col}) carries data"
  | .columnCount found cols => s!"{found} column specs for a {cols}-column grid"
  | .mergeTooLarge row col rows cols => s!"merge at ({row}, {col}) spans {rows}x{cols} cells"
  | .mergeOverlap row col otherRow otherCol =>
    s!"merge at ({row}, {col}) overlaps the merge at ({otherRow}, {otherCol})"
  | .coveredStyle row col => s!"style targets the covered cell ({row}, {col})"
  | .noRecords => "no rows to import"
  | .unknownFormat path =>
    s!"cannot tell the format of {path} (expected .toml, .json or .yaml)"
  | .unreadableText => "the text cannot be read as a document"
  | .unwritableText => "the document cannot be written in this format"

/-- Why a file cannot be read or written. -/
inductive FileFault where
  | notFound | notDirectory | isDirectory
  /-- Any other reason, in the words of the system. -/
  | other (detail : String)
  deriving DecidableEq, Repr

def FileFault.message : FileFault → String
  | .notFound => "No such file or directory (os error 2)"
  | .notDirectory => "Not a directory (os error 20)"
  | .isDirectory => "Is a directory (os error 21)"
  | .other detail => detail

inductive TableError where
  | outOfBounds (row col rows cols : Nat)
  | minimumSize (axis : Axis)
  | invalidColor (value : String)
  | invalidDimension (value : String)
  | invalidDocument (fault : DocumentFault)
  | file (fault : FileFault)
  deriving DecidableEq, Repr

namespace TableError

def message : TableError → String
  | .outOfBounds row col rows cols => s!"Cell ({row}, {col}) is outside the {rows}x{cols} grid"
  | .minimumSize axis => "Cannot delete the last remaining " ++ axis.name
  | .invalidColor value => "Invalid color: '" ++ value ++ "'"
  | .invalidDimension value => "Invalid column width: '" ++ value ++ "'"
  | .invalidDocument fault => "Invalid table document: " ++ fault.message
  | .file fault => "IO error: " ++ fault.message

/-- An index outside the table is a mistake of the caller; all else can be reported to the user. -/
def isRecoverable : TableError → Bool
  | .outOfBounds .. => false
  | _ => true

end TableError

abbrev TableResult := Except TableError

end LatexTable
