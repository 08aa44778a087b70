import LatexTable.Document.Node
import LatexTable.Text.Letters
/-! JSON text of a tree: two spaces of indentation, one item or field on a line. -/
namespace LatexTable.Json

def hexDigit (n : Nat) : Char := (Nat.digitChar n)

/-- A control character without a short escape is written with its code. -/
def escapeChar (c : Char) : List Char :=
  if c = '"' then ['\\', '"']
  else if c = '\\' then ['\\', '\\']
  else if c = '\n' then ['\\', 'n']
  else if c = '\r' then ['\\', 'r']
  else if c = '\t' then ['\\', 't']
  else if c.toNat = 8 then ['\\', 'b']
  else if c.toNat = 12 then ['\\', 'f']
  else if c.toNat < 32 then
    ['\\', 'u', '0', '0', hexDigit (c.toNat / 16), hexDigit (c.toNat % 16)]
  else [c]

def quoted (s : String) : String :=
  "\"" ++ String.ofList (s.toList.flatMap escapeChar) ++ "\""

def indentation (depth : Nat) : String := String.ofList (List.replicate (2 * depth) ' ')

/-- Items on lines of their own between two brackets. -/
def block (opening closing : String) (depth : Nat) (items : List String) : String :=
  if items.isEmpty then opening ++ closing
  else
    opening ++ "\n" ++ ",\n".intercalate (items.map (indentation (depth + 1) ++ ·)) ++ "\n" ++
      indentation depth ++ closing

mutual

def write (depth : Nat) : Node → String
  | .null | .foreign | .unreadable => "null"
  | .flag b => if b then "true" else "false"
  | .number n => toString n
  | .text s => quoted s
  | .list items => block "[" "]" depth (writeItems (depth + 1) items)
  | .record fields => block "\x7b" "\x7d" depth (writeFields (depth + 1) fields)

def writeItems (depth : Nat) : List Node → List String
  | [] => []
  | item :: rest => write depth item :: writeItems depth rest

def writeFields (depth : Nat) : List (String × Node) → List String
  | [] => []
  | (name, value) :: rest =>
    (quoted name ++ ": " ++ write depth value) :: writeFields depth rest

end

end LatexTable.Json
