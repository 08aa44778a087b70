import LatexTable.Delimited.Records
import LatexTable.Grid.Update
import LatexTable.Text.Escape
/-! Grids from delimited text. -/
namespace LatexTable
open Text

inductive Delimiter where
  | comma | tab | semicolon | pipe
  deriving DecidableEq, Repr

namespace Delimiter

def char : Delimiter → Char
  | .comma => ','
  | .tab => '\t'
  | .semicolon => ';'
  | .pipe => '|'

def name : Delimiter → String
  | .comma => "comma"
  | .tab => "tab"
  | .semicolon => "semicolon"
  | .pipe => "pipe"

def ofName? (s : String) : Option Delimiter :=
  match nameKey s with
  | "comma" | "," | "csv" => some .comma
  | "tab" | "\\t" | "tsv" => some .tab
  | "semicolon" | ";" => some .semicolon
  | "pipe" | "|" => some .pipe
  | _ => none

/-- The delimiter that occurs most often in the first five lines; among equals a tab comes first,
then a pipe, then a semicolon. -/
def detect (text : String) : Delimiter :=
  let lines := ((splitAt '\n' text.toList).take 5).flatten
  let count (d : Delimiter) : Nat := lines.count d.char
  let most := max (max (count .comma) (count .tab)) (max (count .pipe) (count .semicolon))
  if most = 0 then .comma
  else if count .tab = most then .tab
  else if count .pipe = most then .pipe
  else if count .semicolon = most then .semicolon
  else .comma

end Delimiter

/-- Without a delimiter the text decides. -/
structure ImportOptions where
  delimiter : Option Delimiter := none
  escape : Bool := true
  boldHeader : Bool := false
  deriving DecidableEq, Repr

/-- The text of a cell for a field. -/
def ImportOptions.cellText (o : ImportOptions) (field : String) : String :=
  if o.escape then Text.escape (trim field) else trim field

def boldContent (content : CellContent) : CellContent :=
  { content with style := { content.style with bold := some true } }

/-- The grid of the records; there has to be one. -/
def Grid.ofRecords (records : List (List String)) (o : ImportOptions) : TableResult Grid := do
  if records.isEmpty then .error (.invalidDocument .noRecords)
  else
    let g := Grid.ofTexts (records.map (List.map o.cellText))
    if o.boldHeader then
      let (g, _) ← g.updateRange (.ofCorners 0 0 0 (g.cols - 1)) boldContent
      return g
    else return g

def Grid.ofDelimited (text : String) (o : ImportOptions) : TableResult Grid :=
  let delimiter := o.delimiter.getD (.detect text)
  Grid.ofRecords (Delimited.records delimiter.char text) o

end LatexTable
