import LatexTable.CommandLine.Arguments
import LatexTable.Delimited.Import
import LatexTable.Document.Format
/-! The requests that the words of a command line make. -/
namespace LatexTable.CommandLine

/-- A document in a file, or on the input stream in a given format. -/
structure DocumentSource where
  path : Option String
  streamFormat : DocumentFormat
  deriving DecidableEq, Repr

/-- Import of delimited text, as LaTeX or as a document. -/
structure ImportRequest where
  path : Option String
  output : Option String
  dialect : Dialect
  delimiter : Option String
  escape : Bool
  boldHeader : Bool
  document : Option DocumentFormat
  deriving DecidableEq, Repr

inductive Request where
  | render (source : DocumentSource) (dialect : Option Dialect) (output : Option String)
    (withPackages : Bool)
  | importText (request : ImportRequest)
  | check (source : DocumentSource) (dialect : Option Dialect) (colored : Bool)
  | packages (source : DocumentSource) (dialect : Option Dialect)
  | info
  deriving DecidableEq, Repr

def dialectWords : List String := [Dialect.modern, .plain, .rules].map Dialect.name

def formatWords : List String := [DocumentFormat.toml, .json, .yaml].map DocumentFormat.name

def verboseOption : OptionSpec := { name := "verbose", letter := some 'v', repeatable := true }

def helpOption : OptionSpec := { name := "help", letter := some 'h', stop := some .help }

def versionOption : OptionSpec := { name := "version", letter := some 'V', stop := some .version }

def outputOption : OptionSpec := { name := "output", letter := some 'o', takes := .text }

def dialectOption : OptionSpec :=
  { name := "dialect", letter := some 'd', takes := .oneOf dialectWords }

def formatOption : OptionSpec := { name := "format", takes := .oneOf formatWords }

namespace Arguments

def has (a : Arguments) (o : String) : Bool := a.flags.contains o

def value? (a : Arguments) (o : String) : Option String := a.values.lookup o

def dialect? (a : Arguments) : Option Dialect := (a.value? "dialect").bind Dialect.ofWord?

def format? (a : Arguments) (o : String) : Option DocumentFormat :=
  (a.value? o).bind DocumentFormat.ofWord?

def source (a : Arguments) : DocumentSource :=
  { path := a.operands.head?, streamFormat := (a.format? "format").getD .toml }

end Arguments

/-- A command: its options beside those that all commands share, how many operands it takes, and the
request that its arguments make. -/
structure Command where
  name : String
  options : List OptionSpec
  operands : Nat := 1
  request : Arguments → Request

def renderCommand : Command where
  name := "render"
  options := [outputOption, dialectOption, formatOption, { name := "with-packages" }]
  request a := .render a.source a.dialect? (a.value? "output") (a.has "with-packages")

def importCommand : Command where
  name := "import"
  options :=
    [outputOption, dialectOption, { name := "delimiter", takes := .text }, { name := "raw" },
      { name := "header" }, { name := "document", takes := .oneOf formatWords }]
  request a :=
    .importText
      { path := a.operands.head?, output := a.value? "output",
        dialect := a.dialect?.getD .modern, delimiter := a.value? "delimiter",
        escape := !a.has "raw", boldHeader := a.has "header", document := a.format? "document" }

def checkCommand : Command where
  name := "check"
  options := [dialectOption, formatOption, { name := "no-color" }]
  request a := .check a.source a.dialect? (!a.has "no-color")

def packagesCommand : Command where
  name := "packages"
  options := [dialectOption, formatOption]
  request a := .packages a.source a.dialect?

def infoCommand : Command where
  name := "info"
  options := []
  operands := 0
  request _ := .info

def commands : List Command :=
  [renderCommand, importCommand, checkCommand, packagesCommand, infoCommand]

/-- Asking for help names at most one command. -/
def helpStop (words : List String) : Stop :=
  match words with
  | [] => .help
  | [word] => if word = "help" || commands.any (·.name = word) then .help else .misuse
  | _ => .misuse

/-- The request of a whole command line. Options before the command concern the program. -/
def Request.ofWords : List String → Except Stop Request
  | [] => .error .misuse
  | word :: rest =>
    if isOptionWord word then
      match readOption [verboseOption, helpOption, versionOption] {} word with
      | .error stop => .error stop
      | .ok _ => ofWords rest
    else if word = "help" then .error (helpStop rest)
    else
      match commands.find? (·.name = word) with
      | none => .error .misuse
      | some command => do
        let options := verboseOption :: helpOption :: command.options
        let a ← readWords options command.operands none {} rest
        return command.request a

end LatexTable.CommandLine
