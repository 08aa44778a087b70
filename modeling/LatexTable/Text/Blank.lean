/-! White space (Unicode property `White_Space`) and trimming. -/
namespace LatexTable.Text

/-- First and last code point of every run of white space. -/
def blankRuns : List (Nat × Nat) :=
  [(0x9, 0xD), (0x20, 0x20), (0x85, 0x85), (0xA0, 0xA0), (0x1680, 0x1680), (0x2000, 0x200A),
   (0x2028, 0x2029), (0x202F, 0x202F), (0x205F, 0x205F), (0x3000, 0x3000)]

def isBlank (c : Char) : Bool :=
  blankRuns.any fun run => run.1 ≤ c.toNat && c.toNat ≤ run.2

def dropBlanks (cs : List Char) : List Char := cs.dropWhile isBlank

/-- Drops the longest suffix whose characters satisfy `p`. -/
def dropEndWhile (p : Char → Bool) (cs : List Char) : List Char :=
  (cs.reverse.dropWhile p).reverse

def trim (s : String) : String :=
  String.ofList (dropEndWhile isBlank (dropBlanks s.toList))

def trimEnd (s : String) : String :=
  String.ofList (dropEndWhile isBlank s.toList)

/-- The trimmed text, `none` when nothing is left. -/
def nonBlank? (s : String) : Option String :=
  let t := trim s
  if t.isEmpty then none else some t

end LatexTable.Text
