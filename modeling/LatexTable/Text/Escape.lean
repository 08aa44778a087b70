/-! Escaping plain text for LaTeX, and two scanners that read a cell text with backslash parity. -/
namespace LatexTable.Text

/-- What stands in LaTeX source for one character of plain text. -/
def escapeChar (c : Char) : List Char :=
  if c = '\\' then "\\textbackslash\x7b\x7d".toList
  else if c = '~' then "\\textasciitilde\x7b\x7d".toList
  else if c = '^' then "\\textasciicircum\x7b\x7d".toList
  else if c ∈ ['&', '%', '$', '#', '_', '\x7b', '\x7d'] then ['\\', c]
  else [c]

def escape (s : String) : String := String.ofList (s.toList.flatMap escapeChar)

/-- Whether an `&` occurs that no backslash escapes; `escaped` tells that the next character is. -/
def bareAmpersandFrom : Bool → List Char → Bool
  | _, [] => false
  | escaped, c :: cs =>
    if c = '\\' then bareAmpersandFrom (!escaped) cs
    else if c = '&' && !escaped then true
    else bareAmpersandFrom false cs

def hasBareAmpersand (s : String) : Bool := bareAmpersandFrom false s.toList

inductive BraceFault where
  | unmatchedClosing
  | unclosed (count : Nat)
  deriving DecidableEq, Repr

/-- The faults in the rest of a text, `depth` braces being open. A closing brace without partner is
reported and leaves the depth at zero. -/
def braceFaultsFrom : Nat → Bool → List Char → List BraceFault
  | depth, _, [] => if depth = 0 then [] else [.unclosed depth]
  | depth, escaped, c :: cs =>
    if c = '\\' then braceFaultsFrom depth (!escaped) cs
    else if c = '\x7b' && !escaped then braceFaultsFrom (depth + 1) false cs
    else if c = '\x7d' && !escaped then
      match depth with
      | 0 => .unmatchedClosing :: braceFaultsFrom 0 false cs
      | depth + 1 => braceFaultsFrom depth false cs
    else braceFaultsFrom depth false cs

def braceFaults (s : String) : List BraceFault := braceFaultsFrom 0 false s.toList

end LatexTable.Text
