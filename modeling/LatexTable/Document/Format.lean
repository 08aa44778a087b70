import LatexTable.Document.Codec
import LatexTable.Document.Json.Reader
import LatexTable.Document.Json.Writer
import LatexTable.Document.Toml.Reader
import LatexTable.Document.Toml.Writer
import LatexTable.Document.Yaml.Reader
import LatexTable.Document.Yaml.Writer
/-! Documents as text, in one of three formats. -/
namespace LatexTable
open Text

inductive DocumentFormat where
  | toml | json | yaml
  deriving DecidableEq, Repr

namespace DocumentFormat

def name : DocumentFormat → String
  | .toml => "toml"
  | .json => "json"
  | .yaml => "yaml"

def ofWord? (s : String) : Option DocumentFormat := [toml, json, yaml].find? (·.name = s)

def ofExtension? : String → Option DocumentFormat
  | "toml" => some .toml
  | "json" => some .json
  | "yaml" | "yml" => some .yaml
  | _ => none

/-- What follows the last point of a file name; a point at its beginning does not count. -/
def extension? (name : List Char) : Option (List Char) :=
  let pieces := splitAt '.' name
  let stem := pieces.dropLast
  if name = ['.', '.'] || stem.isEmpty || stem = [[]] then none else pieces.getLast?

/-- The format that the extension of a path names. The file name is the last part of the path that
is neither empty nor a single point. -/
def ofPath? (path : String) : Option DocumentFormat := do
  let parts := (splitAt '/' path.toList).filter fun part => !part.isEmpty && part ≠ ['.']
  let file ← parts.getLast?
  let extension ← extension? file
  ofExtension? (String.ofList (extension.map lower))

end DocumentFormat

/-- What keeps records in texts of one format: the tree of a shape that a text holds, and the text
of a record. -/
structure TextLibrary where
  read : Shape → String → Option Node
  write : List (String × Node) → Option String

def DocumentFormat.library : DocumentFormat → TextLibrary
  | .toml =>
    { read := fun shape text => (Toml.read text).bind (shape.settle Toml.conventions)
      write := Toml.write }
  | .json =>
    { read := fun shape text => (Json.read text).bind (shape.settle Json.conventions)
      write := fun fields => some (Json.write 0 (.record fields)) }
  | .yaml =>
    { read := Yaml.read
      write := fun fields => some (Yaml.write (.record fields)) }

namespace TableDocument

def parseWith (library : TextLibrary) (text : String) : TableResult TableDocument :=
  match (library.read shape text).bind decode with
  | some d => .ok d
  | none => .error (.invalidDocument .unreadableText)

def toTextWith (library : TextLibrary) (d : TableDocument) : TableResult String :=
  match library.write d.encodeFields with
  | some text => .ok text
  | none => .error (.invalidDocument .unwritableText)

def parse (text : String) (format : DocumentFormat) : TableResult TableDocument :=
  parseWith format.library text

def toText (d : TableDocument) (format : DocumentFormat) : TableResult String :=
  toTextWith format.library d

end TableDocument

/-- The session that a text describes. -/
def Session.ofText (text : String) (format : DocumentFormat) : TableResult Session := do
  let d ← TableDocument.parse text format
  d.toSession

def Session.toText (s : Session) (format : DocumentFormat) : TableResult String :=
  (TableDocument.ofSession s).toText format

/-- The LaTeX source of the table that a text describes. -/
def latexOfDocument (text : String) (format : DocumentFormat) : TableResult String := do
  let s ← Session.ofText text format
  return s.latex

end LatexTable
