/-! Diagnostics about a table, and their text for a terminal. -/
namespace LatexTable

inductive Severity where
  | info | warning | error
  deriving DecidableEq, Repr

namespace Severity

def name : Severity → String
  | .info => "info"
  | .warning => "warning"
  | .error => "error"

end Severity

/-- Rows and columns are counted from one. -/
structure Diagnostic where
  severity : Severity
  message : String
  row : Option Nat := none
  column : Option Nat := none
  source : Option String := none
  suggestion : Option String := none
  deriving DecidableEq, Repr

namespace Diagnostic

def atCell (d : Diagnostic) (row col : Nat) : Diagnostic :=
  { d with row := some (row + 1), column := some (col + 1) }

def atColumn (d : Diagnostic) (col : Nat) : Diagnostic := { d with column := some (col + 1) }

def withSource (d : Diagnostic) (source : String) : Diagnostic := { d with source := some source }

def withSuggestion (d : Diagnostic) (suggestion : String) : Diagnostic :=
  { d with suggestion := some suggestion }

/-- A row without a column has no place to name. -/
def placeText (d : Diagnostic) : String :=
  match d.row, d.column with
  | some row, some col => s!"\n  --> cell {row}:{col}"
  | none, some col => s!"\n  --> column {col}"
  | _, none => ""

def text (d : Diagnostic) : String :=
  d.severity.name ++ ": " ++ d.message ++ d.placeText ++
    (d.source.map fun s => "\n  |\n  | " ++ s).getD "" ++
    (d.suggestion.map fun s => "\n  = help: " ++ s).getD ""

end Diagnostic

/-- The diagnostics of a check, in the order found. -/
structure Report where
  diagnostics : List Diagnostic
  deriving DecidableEq, Repr

namespace Report

def count (r : Report) (severity : Severity) : Nat :=
  r.diagnostics.countP fun d => d.severity = severity

def hasErrors (r : Report) : Bool := 0 < r.count .error

def isEmpty (r : Report) : Bool := r.diagnostics.isEmpty

/-- A count with its noun, nothing for a count of zero. -/
def countText (n : Nat) (noun : String) : List String :=
  if n = 0 then [] else [toString n ++ " " ++ noun ++ (if n = 1 then "" else "s")]

def summary (r : Report) : String :=
  let parts :=
    countText (r.count .error) "error" ++ countText (r.count .warning) "warning" ++
      countText (r.count .info) "note"
  if parts.isEmpty then "no issues found" else ", ".intercalate parts

def red : String := "\x1b[31m"

def green : String := "\x1b[32m"

def yellow : String := "\x1b[33m"

def blue : String := "\x1b[34m"

def resetColor : String := "\x1b[0m"

def severityColor : Severity → String
  | .error => red
  | .warning => yellow
  | .info => blue

def summaryColor (r : Report) : String :=
  if r.hasErrors then red else if 0 < r.count .warning then yellow else green

/-- All diagnostics and a summary, with terminal colours on request. -/
def text (r : Report) (colored : Bool) : String :=
  let paint (color s : String) : String := if colored then color ++ s ++ resetColor else s
  String.join (r.diagnostics.map fun d => paint (severityColor d.severity) d.text ++ "\n\n") ++
    paint r.summaryColor ("Summary: " ++ r.summary)

end Report
end LatexTable
