import LatexTable.Check.Diagnostic
import LatexTable.Column.Mapping
import LatexTable.Grid.Validate
import LatexTable.Options
import LatexTable.Text.Escape
/-! Checking a table against the dialect in which it will be written. -/
namespace LatexTable

/-- A column that the dialect writes as another kind. -/
def columnDiagnostic? (dialect : Dialect) (col : Nat) (spec : ColumnSpec) (mapped : MappedColumn) :
    Option Diagnostic :=
  if spec.kind = .paragraph && spec.effectiveWidth?.isNone then
    some <|
      ({ severity := .warning,
         message := "paragraph column has no width, emitted as a left column" :
        Diagnostic }.atColumn col).withSuggestion "Set a width such as 3cm or 0.3"
  else
    match mapped.mapping with
    | .native => none
    | .fallback source target =>
      some <|
        ({ severity := .warning,
           message :=
             source.name ++ " column is not available in the " ++ dialect.name ++
               " dialect, emitted as " ++ target.name : Diagnostic }.atColumn
          col).withSource mapped.token

def columnDiagnostics (dialect : Dialect) (columns : ColumnSpecs) : List Diagnostic :=
  ((columns.zip (columns.mapFor dialect)).zipIdx).filterMap fun ((spec, mapped), col) =>
    columnDiagnostic? dialect col spec mapped

def braceDiagnostic (text : String) (row col : Nat) : Text.BraceFault → Diagnostic
  | .unmatchedClosing =>
    (({ severity := .error, message := "unmatched closing brace '\x7d'" : Diagnostic }.atCell
      row col).withSource text).withSuggestion "Check for missing opening brace"
  | .unclosed count =>
    let noun := if count = 1 then "brace" else "braces"
    (({ severity := .error, message := toString count ++ " unclosed " ++ noun : Diagnostic }.atCell
      row col).withSource text).withSuggestion "Check for missing closing brace '\x7d'"

def ampersandDiagnostics (text : String) (row col : Nat) : List Diagnostic :=
  if Text.hasBareAmpersand text then
    [(({ severity := .error, message := "unescaped '&' would start a new cell" : Diagnostic }.atCell
      row col).withSource text).withSuggestion "Write \\& for a literal ampersand"]
  else []

def colorDiagnostics (style : CellStyle) (row col : Nat) : List Diagnostic :=
  (style.foreground.toList ++ style.background.toList).flatMap fun color =>
    color.unknownNames.map fun name =>
      ({ severity := .warning,
         message := "color '" ++ name ++ "' is not predefined by xcolor" : Diagnostic }.atCell
        row col).withSuggestion "Define it with \\definecolor or use an HTML value"

def cellDiagnostics (c : Cell) (row col : Nat) : List Diagnostic :=
  if c.hidden then []
  else
    ampersandDiagnostics c.text row col ++
      (Text.braceFaults c.text).map (braceDiagnostic c.text row col) ++
      colorDiagnostics c.style row col

def gridDiagnostics (g : Grid) : List Diagnostic :=
  let visible := g.places.filter fun (row, col) => !(g.cellAt row col).hidden
  (g.places.flatMap fun (row, col) => cellDiagnostics (g.cellAt row col) row col) ++
    if visible.any fun (row, col) => (g.cellAt row col).hasContent then []
    else [{ severity := .info, message := "table has no content" }]

def themeDiagnostics (dialect : Dialect) (o : TableOptions) : List Diagnostic :=
  match o.themeName? with
  | none => []
  | some theme =>
    if dialect = .modern then []
    else
      [{ severity := .info,
         message := "theme '" ++ theme ++ "' is ignored by the " ++ dialect.name ++ " dialect" }]

def labelDiagnostics (o : TableOptions) : List Diagnostic :=
  match o.captionText?, o.label.bind Text.nonBlank? with
  | none, some label =>
    [{ severity := .warning,
       message := "label '" ++ label ++ "' is dropped because the table has no caption",
       suggestion := some "Add a caption to make the table referable" }]
  | _, _ => []

def ruleDiagnostics (dialect : Dialect) (o : TableOptions) : List Diagnostic :=
  if dialect = .rules && o.verticalRules then
    [{ severity := .info, message := "vertical rules are not drawn in the rules dialect" }]
  else []

def encodingDiagnostics (g : Grid) : List Diagnostic :=
  match g.fault? with
  | none => []
  | some fault =>
    [{ severity := .error, message := (TableError.invalidDocument fault).message }]

def registryDiagnostics (g : Grid) (columns : ColumnSpecs) : List Diagnostic :=
  if columns.length = g.cols then []
  else
    [{ severity := .error,
       message := s!"{columns.length} column specs for a {g.cols}-column table",
       suggestion := some "Missing columns are emitted as centred columns" }]

/-- Everything that will not come out as authored. -/
def checkTable (g : Grid) (columns : ColumnSpecs) (dialect : Dialect) (o : TableOptions) : Report :=
  ⟨encodingDiagnostics g ++ registryDiagnostics g columns ++ columnDiagnostics dialect columns ++
    gridDiagnostics g ++ themeDiagnostics dialect o ++ labelDiagnostics o ++
    ruleDiagnostics dialect o⟩

end LatexTable
