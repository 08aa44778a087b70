import LatexTable.Document.Yaml.Chars
/-! Places in a YAML text, with the line and the column that its structure depends on. -/
namespace LatexTable.Yaml

structure Place where
  rest : List Char
  /-- How many octets have been passed over. -/
  offset : Nat := 0
  line : Nat := 0
  col : Nat := 0
  deriving DecidableEq, Repr

namespace Place

/-- Passes over some characters. -/
def ahead (n : Nat) (p : Place) : Place :=
  let run := p.rest.take n
  { rest := p.rest.drop n
    offset := run.foldl (fun offset c => offset + c.utf8Size) p.offset
    line := p.line + run.countP isBreak
    col := run.foldl (fun col c => if isBreak c then 0 else col + 1) p.col }

/-- Passes over the characters of a class. -/
def past (p : Char → Bool) (place : Place) : Place := place.ahead (place.rest.takeWhile p).length

/-- The white space and line ends at a place, and the place behind them. -/
def gap (p : Place) : List Char × Place :=
  let run := p.rest.takeWhile isBlank
  (run, p.ahead run.length)

def atMark (p : Place) : Bool := p.col = 0 && isDocumentMark p.rest

/-- Whether the document ends here. -/
def atEnd (p : Place) : Bool := p.rest.isEmpty || p.atMark

/-- Whether nothing more stands on the line. -/
def atLineEnd (p : Place) : Bool := p.rest.head?.all isBreak

/-- Skips a comment up to the end of its line. -/
def skipComment (p : Place) : Place :=
  if p.rest.head? = some '#' then p.past (!isBreak ·) else p

/-- Skips what may stand at the end of a line: white space and a comment. -/
def skipLineRest (p : Place) : Place := (p.past isSpace).skipComment

end Place
end LatexTable.Yaml
