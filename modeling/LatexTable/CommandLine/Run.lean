import LatexTable.Check.Table
import LatexTable.CommandLine.Request
import LatexTable.Document.Files
import LatexTable.Packages
/-! What the program answers to a request. -/
namespace LatexTable.CommandLine

inductive CommandError where
  | table (error : TableError)
  | unknownDelimiter (name : String)
  deriving DecidableEq, Repr

def CommandError.message : CommandError → String
  | .table error => error.message
  | .unknownDelimiter name => "unknown delimiter '" ++ name ++ "'"

abbrev CommandResult := Except CommandError

def ofTable {α : Type} (result : TableResult α) : CommandResult α := result.mapError .table

/-- A text for the output stream or for a file. -/
structure Response where
  output : String
  file : Option String := none
  exitCode : Nat := 0
  deriving DecidableEq, Repr

/-- Where a request takes its text from. -/
inductive Input where
  | nothing
  | stream
  | file (path : String)
  deriving DecidableEq, Repr

def Input.ofPath? : Option String → Input
  | none => .stream
  | some path => .file path

namespace Request

def input : Request → Input
  | .render source .. | .check source .. | .packages source _ => .ofPath? source.path
  | .importText request => .ofPath? request.path
  | .info => .nothing

end Request

def DocumentSource.format (s : DocumentSource) : TableResult DocumentFormat :=
  match s.path with
  | none => .ok s.streamFormat
  | some path =>
    match DocumentFormat.ofPath? path with
    | some format => .ok format
    | none => .error (.invalidDocument (.unknownFormat path))

/-- The session of a document. `input` is the text of its file or of the stream. -/
def DocumentSource.session (s : DocumentSource) (input : FileResult String) :
    TableResult Session := do
  let format ← s.format
  let text ← input.mapError .file
  Session.ofText text format

/-- A session with another dialect, when one is asked for. -/
def withDialect (s : Session) (dialect : Option Dialect) : Session :=
  { s with dialect := dialect.getD s.dialect }

def unlines (lines : List String) : String := String.join (lines.map (· ++ "\n"))

def programVersion : String := "0.3.5"

def onOff (b : Bool) : String := if b then "on" else "off"

def infoLines : List String :=
  let o := TableOptions.default
  ["texgrid - LaTeX table generator",
   "Version: " ++ programVersion,
   "",
   "Dialects:",
   "  modern  tabularray (tblr, longtblr)",
   "  plain   tabular / longtable with \\hline rules",
   "  rules   booktabs (\\toprule, \\midrule, \\bottomrule)",
   "",
   "Document formats: toml, json, yaml",
   "Import formats: csv, tsv, semicolon and pipe separated text",
   "",
   "Defaults: horizontal rules " ++ onOff o.horizontalRules ++ ", vertical rules " ++
     onOff o.verticalRules ++ ", centering " ++ onOff o.centering]

def usage : String :=
  "Usage: tgrid [-v] <" ++ "|".intercalate (commands.map Command.name) ++
    "> [OPTIONS] [INPUT]"

/-- The LaTeX source; the packages that it needs may stand before it as comments. -/
def renderText (s : Session) (withPackages : Bool) : String :=
  let lines := if withPackages then packageLines s.grid s.dialect s.options else []
  unlines (lines.map ("% " ++ ·)) ++ s.latex

def ImportRequest.delimiter? (r : ImportRequest) : CommandResult (Option Delimiter) :=
  match r.delimiter with
  | none => .ok none
  | some name =>
    match Delimiter.ofName? name with
    | some delimiter => .ok (some delimiter)
    | none => .error (.unknownDelimiter name)

/-- The imported table with centred columns, as LaTeX or as a document. -/
def ImportRequest.text (r : ImportRequest) (input : FileResult String) : CommandResult String := do
  let text ← ofTable (input.mapError .file)
  let delimiter ← r.delimiter?
  let options : ImportOptions := { delimiter, escape := r.escape, boldHeader := r.boldHeader }
  let grid ← ofTable (Grid.ofDelimited text options)
  let session ← ofTable (Session.ofParts grid (.blank grid.cols))
  let session := withDialect session r.dialect
  match r.document with
  | none => return session.latex
  | some format => ofTable (session.toText format)

/-- The response to a request whose input has been read. -/
def Request.respond (request : Request) (input : FileResult String) : CommandResult Response := do
  match request with
  | .render source dialect output withPackages =>
    let s ← ofTable (source.session input)
    return { output := renderText (withDialect s dialect) withPackages ++ "\n", file := output }
  | .importText r =>
    let text ← r.text input
    return { output := text ++ "\n", file := r.output }
  | .check source dialect colored =>
    let s ← ofTable (source.session input)
    let report := checkTable s.grid s.columns (dialect.getD s.dialect) s.options
    return { output := report.text colored ++ "\n", exitCode := if report.hasErrors then 1 else 0 }
  | .packages source dialect =>
    let s ← ofTable (source.session input)
    return { output := unlines (packageLines s.grid (dialect.getD s.dialect) s.options) }
  | .info => return { output := unlines infoLines }

/-- The response to words that make no request. -/
def Stop.response : Stop → Response
  | .misuse => { output := "", exitCode := 2 }
  | .help => { output := usage ++ "\n" }
  | .version => { output := "tgrid " ++ programVersion ++ "\n" }

/-- What a run leaves behind: the exit code, the text on the output stream, and the files. -/
structure Outcome where
  exitCode : Nat
  output : String
  store : FileStore
  deriving DecidableEq, Repr

def Response.deliver (r : Response) (store : FileStore) : Outcome :=
  match r.file with
  | none => { exitCode := r.exitCode, output := r.output, store }
  | some path =>
    match store.write (.ofText path) r.output with
    | .ok store => { exitCode := r.exitCode, output := "", store }
    | .error _ => { exitCode := 1, output := "", store }

/-- A run of the program on stored files and the text of its input stream. -/
def run (words : List String) (store : FileStore) (stream : String) : Outcome :=
  match Request.ofWords words with
  | .error stop => stop.response.deliver store
  | .ok request =>
    let input := match request.input with
      | .nothing => .ok ""
      | .stream => .ok stream
      | .file path => store.read (.ofText path)
    match request.respond input with
    | .ok response => response.deliver store
    | .error _ => { exitCode := 1, output := "", store }

end LatexTable.CommandLine
