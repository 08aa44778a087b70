import LatexTable.Document.Node
import LatexTable.Text.Letters
/-!
TOML text of a tree. Arrays of more than one item stand on lines of their own, records become tables
behind the plain values. A number beyond 2^63 - 1 has no TOML text.
-/
namespace LatexTable.Toml
open Text

/-- The largest whole number of the format: the largest of 64 bits with a sign. -/
def maxWhole : Nat := 9223372036854775807

/-- The length of the longest run of a character. -/
def longestRun (c : Char) (cs : List Char) : Nat :=
  (cs.foldl (fun (run, most) d => if d = c then (run + 1, max most (run + 1)) else (0, most))
    (0, 0)).2

/-- Control characters that no form of text takes as they are. -/
def isControl (c : Char) : Bool :=
  (c.toNat < 32 && c ≠ '\t' && c ≠ '\n') || c.toNat = 127

/-- The forms in which a text can be written, and whether it stands on more than one line. -/
inductive TextForm where
  | basic | literal | longBasic | longLiteral
  deriving DecidableEq, Repr

/-- The first form that takes the text as it is, or else a form with escapes. -/
def textForm (cs : List Char) : TextForm :=
  let lines := cs.contains '\n'
  let backslash := cs.contains '\\'
  let doubles := longestRun '"' cs
  let singles := longestRun '\'' cs
  if cs.any isControl then (if lines then .longBasic else .basic)
  else if !backslash && doubles = 0 && !lines then .basic
  else if singles = 0 && !lines then .literal
  else if !backslash && doubles ≤ 2 then .longBasic
  else if singles ≤ 2 then .longLiteral
  else if lines then .longBasic else .basic

def hex4 (n : Nat) : List Char :=
  [n / 4096 % 16, n / 256 % 16, n / 16 % 16, n % 16].map fun d => (Nat.digitChar d).toUpper

/-- A character of a text with escapes. -/
def escapeChar (long : Bool) (c : Char) : List Char :=
  if c = '\\' then ['\\', '\\']
  else if c.toNat = 8 then ['\\', 'b']
  else if c = '\t' then ['\\', 't']
  else if c = '\n' then (if long then ['\n'] else ['\\', 'n'])
  else if c.toNat = 12 then ['\\', 'f']
  else if c = '\r' then ['\\', 'r']
  else if c.toNat < 32 || c.toNat = 127 then '\\' :: 'u' :: hex4 c.toNat
  else [c]

/-- The characters of a text with escapes; `run` quotes stand right before. Two quotes in a row may
stand as they are in the long form, none in the short one. -/
def escapeFrom (long : Bool) : Nat → List Char → List Char
  | _, [] => []
  | run, c :: cs =>
    if c = '"' then
      if run < (if long then 2 else 0) then c :: escapeFrom long (run + 1) cs
      else '\\' :: c :: escapeFrom long 0 cs
    else escapeChar long c ++ escapeFrom long 0 cs

def enclose (mark : String) (cs : List Char) : String := mark ++ String.ofList cs ++ mark

/-- The long forms begin on a new line when the text has lines. -/
def textValue (s : String) : String :=
  let cs := s.toList
  let lead := if cs.contains '\n' then ['\n'] else []
  match textForm cs with
  | .basic => enclose "\"" (escapeFrom false 0 cs)
  | .literal => enclose "\x27" cs
  | .longBasic => enclose "\"\"\"" (lead ++ escapeFrom true 0 cs)
  | .longLiteral => enclose "\x27\x27\x27" (lead ++ cs)

def isBareKeyChar (c : Char) : Bool :=
  isAsciiLetter c || isAsciiDigit c || c = '_' || c = '-'

def key (name : String) : String :=
  if !name.isEmpty && name.toList.all isBareKeyChar then name else textValue name

def array (items : List String) : String :=
  match items with
  | [] => "[]"
  | [item] => "[" ++ item ++ "]"
  | items => "[" ++ String.join (items.map fun item => "\n    " ++ item ++ ",") ++ "\n]"

def inlineTable (fields : List String) : String :=
  if fields.isEmpty then "\x7b\x7d" else "\x7b " ++ ", ".intercalate fields ++ " \x7d"

mutual

def writeValue : Node → Option String
  | .null | .foreign | .unreadable => none
  | .flag b => some (if b then "true" else "false")
  | .number n => if n ≤ maxWhole then some (toString n) else none
  | .text s => some (textValue s)
  | .list items => (writeItems items).map array
  | .record fields => (writeFields fields).map inlineTable

def writeItems : List Node → Option (List String)
  | [] => some []
  | item :: rest => do
    let first ← writeValue item
    let others ← writeItems rest
    return first :: others

/-- Fields, each as a name and its value. -/
def writeFields : List (String × Node) → Option (List String)
  | [] => some []
  | (name, value) :: rest => do
    let first ← writeValue value
    let others ← writeFields rest
    return (key name ++ " = " ++ first) :: others

end

def recordFields? : Node → Option (List (String × Node))
  | .record fields => some fields
  | _ => none

/-- The tables that a field of the document is written as, with the mark of their header, or nothing
when the field is a plain value. -/
def tables? : Node → Option (Bool × List (List (String × Node)))
  | .record fields => some (false, [fields])
  | .list [] => none
  | .list items => (items.mapM recordFields?).map fun entries => (true, entries)
  | _ => none

def header (array : Bool) (name : String) : String :=
  if array then "[[" ++ key name ++ "]]" else "[" ++ key name ++ "]"

def unlines (lines : List String) : String := String.join (lines.map (· ++ "\n"))

def writeTables (name : String) (array : Bool) (entries : List (List (String × Node))) :
    Option String := do
  let texts ← entries.mapM fun fields => do
    let lines ← writeFields fields
    return "\n" ++ header array name ++ "\n" ++ unlines lines
  return String.join texts

/-- The document: plain values first, then the tables in their order. -/
def write (fields : List (String × Node)) : Option String := do
  let plain ← writeFields (fields.filter fun f => (tables? f.2).isNone)
  let tables ← fields.mapM fun (name, value) =>
    match tables? value with
    | none => some ""
    | some (array, entries) => writeTables name array entries
  return unlines plain ++ String.join tables

end LatexTable.Toml
