import LatexTable.Document.Basic
import LatexTable.Document.Shape
/-!
Documents as trees of values. A field that is not set is left out, and an empty list of columns,
merges or styles too; reading gives them back. Trees are read once they have settled into the shape
of a document.
-/
namespace LatexTable

namespace Node

def text? : Node → Option String
  | .text s => some s
  | _ => none

def flag? : Node → Option Bool
  | .flag b => some b
  | _ => none

def number? : Node → Option Nat
  | .number n => if n ≤ maxIndex then some n else none
  | _ => none

def list? : Node → Option (List Node)
  | .list items => some items
  | _ => none

def fields? : Node → Option (List (String × Node))
  | .record fields => some fields
  | _ => none

/-- A field that may be without a value. -/
def optional? {α : Type} (read : Node → Option α) : Node → Option (Option α)
  | .null => some none
  | node => (read node).map some

/-- A word out of a fixed choice. -/
def word? {α : Type} (choice : String → Option α) (node : Node) : Option α :=
  node.text?.bind choice

end Node

/-- Reading one field of a record. -/
def fieldOr {α : Type} (fields : List (String × Node)) (name : String) (default : Option α)
    (read : Node → Option α) : Option α :=
  match fields.lookup name with
  | none => default
  | some node => read node

namespace Dialect

def all : List Dialect := [modern, plain, rules]

def ofWord? (s : String) : Option Dialect := all.find? (·.name = s)

def shape : Shape := .word (all.map name)

end Dialect

namespace ColumnKind

def all : List ColumnKind := [left, center, right, flexibleRatio, flexibleFixed, paragraph]

def ofWord? (s : String) : Option ColumnKind := all.find? (·.name = s)

def shape : Shape := .word (all.map name)

end ColumnKind

namespace HAlign

def all : List HAlign := [left, center, right, justify]

def ofWord? (s : String) : Option HAlign := all.find? (·.name = s)

def shape : Shape := .word (all.map name)

end HAlign

namespace VAlign

def all : List VAlign := [head, middle, foot]

def ofWord? (s : String) : Option VAlign := all.find? (·.name = s)

def shape : Shape := .word (all.map name)

end VAlign

/-- A field with the value, when there is one. -/
def optionalField {α : Type} (name : String) (encode : α → Node) (value : Option α) :
    List (String × Node) :=
  match value with
  | none => []
  | some a => [(name, encode a)]

namespace TableOptions

def shape : Shape :=
  .record [("caption", .optional .text), ("label", .optional .text), ("long_table", .flag),
    ("horizontal_rules", .flag), ("vertical_rules", .flag), ("centering", .flag),
    ("theme", .optional .text)]

def encode (o : TableOptions) : Node :=
  .record <|
    optionalField "caption" .text o.caption ++ optionalField "label" .text o.label ++
      [("long_table", .flag o.longTable), ("horizontal_rules", .flag o.horizontalRules),
       ("vertical_rules", .flag o.verticalRules), ("centering", .flag o.centering)] ++
      optionalField "theme" .text o.theme

def decode (node : Node) : Option TableOptions := do
  let fields ← node.fields?
  let caption ← fieldOr fields "caption" (some none) (Node.optional? Node.text?)
  let label ← fieldOr fields "label" (some none) (Node.optional? Node.text?)
  let longTable ← fieldOr fields "long_table" (some false) Node.flag?
  let horizontalRules ← fieldOr fields "horizontal_rules" (some true) Node.flag?
  let verticalRules ← fieldOr fields "vertical_rules" (some true) Node.flag?
  let centering ← fieldOr fields "centering" (some true) Node.flag?
  let theme ← fieldOr fields "theme" (some none) (Node.optional? Node.text?)
  return { caption, label, longTable, horizontalRules, verticalRules, centering, theme }

end TableOptions

namespace ColumnSpec

def shape : Shape := .record [("kind", ColumnKind.shape), ("width", .optional .text)]

def encode (s : ColumnSpec) : Node :=
  .record <| ("kind", .text s.kind.name) :: optionalField "width" .text s.width

def decode (node : Node) : Option ColumnSpec := do
  let fields ← node.fields?
  let kind ← fieldOr fields "kind" (some .center) (Node.word? ColumnKind.ofWord?)
  let width ← fieldOr fields "width" (some none) (Node.optional? Node.text?)
  return { kind, width }

end ColumnSpec

namespace MergeSpec

def shape : Shape :=
  .record [("row", .number), ("col", .number), ("rows", .number), ("cols", .number)]

def encode (m : MergeSpec) : Node :=
  .record [("row", .number m.row), ("col", .number m.col), ("rows", .number m.rows),
    ("cols", .number m.cols)]

def decode (node : Node) : Option MergeSpec := do
  let fields ← node.fields?
  let row ← fieldOr fields "row" none Node.number?
  let col ← fieldOr fields "col" none Node.number?
  let rows ← fieldOr fields "rows" (some 1) Node.number?
  let cols ← fieldOr fields "cols" (some 1) Node.number?
  return { row, col, rows, cols }

end MergeSpec

namespace Color

def encode (c : Color) : Node := .text c.text

def decode : Node → Option Color
  | .text s => parse? s
  | _ => none

end Color

namespace CellStyle

def encodeFields (s : CellStyle) : List (String × Node) :=
  optionalField "bold" .flag s.bold ++ optionalField "italic" .flag s.italic ++
    optionalField "halign" (fun h => .text h.name) s.halign ++
    optionalField "valign" (fun v => .text v.name) s.valign ++
    optionalField "fg_color" Color.encode s.foreground ++
    optionalField "bg_color" Color.encode s.background

def partShapes : List (String × Shape) :=
  [("bold", .optional .flag), ("italic", .optional .flag), ("halign", .optional HAlign.shape),
   ("valign", .optional VAlign.shape), ("fg_color", .optional .text), ("bg_color", .optional .text)]

def partOf {α : Type} (fields : List (String × Node)) (name : String) (read : Node → Option α) :
    Option (Option α) :=
  fieldOr fields name (some none) (Node.optional? read)

def decodeFields (fields : List (String × Node)) : Option CellStyle := do
  let bold ← partOf fields "bold" Node.flag?
  let italic ← partOf fields "italic" Node.flag?
  let halign ← partOf fields "halign" (Node.word? HAlign.ofWord?)
  let valign ← partOf fields "valign" (Node.word? VAlign.ofWord?)
  let foreground ← partOf fields "fg_color" Color.decode
  let background ← partOf fields "bg_color" Color.decode
  return { bold, italic, halign, valign, foreground, background }

end CellStyle

namespace StyleSpec

/-- The parts of the style stand beside the place. -/
def shape : Shape := .entry [("row", .number), ("col", .number)] CellStyle.partShapes

def encode (s : StyleSpec) : Node :=
  .record <| ("row", .number s.row) :: ("col", .number s.col) :: s.style.encodeFields

def decode (node : Node) : Option StyleSpec := do
  let fields ← node.fields?
  let row ← fieldOr fields "row" none Node.number?
  let col ← fieldOr fields "col" none Node.number?
  let style ← CellStyle.decodeFields fields
  return { row, col, style }

end StyleSpec

namespace TableDocument

def shape : Shape :=
  .record [("dialect", Dialect.shape), ("rows", .list (.list .text)),
    ("options", TableOptions.shape), ("columns", .list ColumnSpec.shape),
    ("merges", .list MergeSpec.shape), ("styles", .list StyleSpec.shape)]

/-- A field with a list, when it is not empty. -/
def listField {α : Type} (name : String) (encode : α → Node) (items : List α) :
    List (String × Node) :=
  if items.isEmpty then [] else [(name, .list (items.map encode))]

def encodeFields (d : TableDocument) : List (String × Node) :=
  [("dialect", .text d.dialect.name),
   ("rows", .list (d.rows.map fun row => .list (row.map .text))), ("options", d.options.encode)] ++
    listField "columns" ColumnSpec.encode d.columns ++
    listField "merges" MergeSpec.encode d.merges ++ listField "styles" StyleSpec.encode d.styles

def encode (d : TableDocument) : Node := .record d.encodeFields

def decodeList {α : Type} (decode : Node → Option α) (node : Node) : Option (List α) := do
  let items ← node.list?
  items.mapM decode

def decode (node : Node) : Option TableDocument := do
  let fields ← node.fields?
  let dialect ← fieldOr fields "dialect" (some .modern) (Node.word? Dialect.ofWord?)
  let rows ← fieldOr fields "rows" (some []) (decodeList (decodeList Node.text?))
  let options ← fieldOr fields "options" (some {}) TableOptions.decode
  let columns ← fieldOr fields "columns" (some []) (decodeList ColumnSpec.decode)
  let merges ← fieldOr fields "merges" (some []) (decodeList MergeSpec.decode)
  let styles ← fieldOr fields "styles" (some []) (decodeList StyleSpec.decode)
  return { dialect, rows, options, columns, merges, styles }

end TableDocument
end LatexTable
