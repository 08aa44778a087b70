import LatexTable.Column.Mapping
import LatexTable.Grid.Basic
import LatexTable.Latex.Frame
/-!
Tables whose header declares columns, spans and styles. The body then holds plain texts only, one
for every cell.
-/
namespace LatexTable.Latex

/-- The definitions of the colours of a visible cell. -/
def cellDefinitions (c : Cell) : List String :=
  if c.hidden then []
  else
    (c.style.foreground.bind Color.definition?).toList ++
      (c.style.background.bind Color.definition?).toList

/-- Each definition once, where it is first needed. -/
def definitions (g : Grid) : List String :=
  (g.rowList.flatten.flatMap cellDefinitions).foldl
    (fun seen line => if seen.contains line then seen else seen ++ [line]) []

/-- The keys of the outer specification. -/
def outerKeys (o : TableOptions) : List String :=
  let heading :=
    if o.longTable then
      match o.captionText? with
      | some caption =>
        ("caption=" ++ braced caption) ::
          (o.labelText?.map fun label => "label=" ++ braced label).toList
      | none => ["entry=none", "label=none"]
    else []
  heading ++ (o.themeName?.map fun theme => "theme=" ++ theme).toList

/-- The keys for the style of a cell. -/
def styleKeys (s : CellStyle) : List String :=
  let font := (if s.isBold then "\\bfseries" else "") ++ (if s.isItalic then "\\itshape" else "")
  (s.halign.map fun h => "halign=" ++ h.letter.toString).toList ++
    (s.valign.map fun v => "valign=" ++ v.keyLetter.toString).toList ++
    (s.foreground.map fun color => "fg=" ++ color.keyName).toList ++
    (s.background.map fun color => "bg=" ++ color.keyName).toList ++
    (if font.isEmpty then [] else ["font=" ++ font])

/-- The keys for the spans of a cell. -/
def spanKeys (c : Cell) : List String :=
  (if 1 < c.rowSpan then [s!"r={c.rowSpan}"] else []) ++
    (if 1 < c.colSpan then [s!"c={c.colSpan}"] else [])

/-- The header entry of a cell; only a visible cell that spans or has a style needs one. -/
def cellEntry? (c : Cell) (row col : Nat) : Option String :=
  if c.hidden || (!c.isSpanning && !c.style.hasEffect) then none
  else
    let target := "cell" ++ braced (toString (row + 1)) ++ braced (toString (col + 1)) ++ " = "
    let spans := if c.isSpanning then braced (",".intercalate (spanKeys c)) else ""
    some (target ++ spans ++ braced (",".intercalate (styleKeys c.style)))

/-- The entries of all cells, row by row. -/
def cellEntries (g : Grid) : List String :=
  g.places.filterMap fun (row, col) => cellEntry? (g.cellAt row col) row col

def tblrColspec (g : Grid) (columns : ColumnSpecs) : String :=
  String.join ((columns.resolve .modern g.cols).map (·.token))

def tblrHeader (g : Grid) (columns : ColumnSpecs) (o : TableOptions) : List String :=
  ("colspec = " ++ braced (tblrColspec g columns)) ::
    ((if o.horizontalRules then ["hlines"] else []) ++
      (if o.verticalRules then ["vlines"] else []) ++ cellEntries g)

/-- What stands in the body for a cell. -/
def bodyText (c : Cell) : String := if c.hidden then "" else Text.trim c.text

def bodyLine (row : List Cell) : String := "  " ++ " & ".intercalate (row.map bodyText) ++ " \\\\"

def tblrTable (g : Grid) (columns : ColumnSpecs) (o : TableOptions) : String :=
  let environment := if o.longTable then "longtblr" else "tblr"
  let outer := outerKeys o
  let keys := if outer.isEmpty then "" else bracketed (",".intercalate outer)
  Text.trimEnd <| unlines <|
    definitions g ++ o.openingLines ++
      [beginning environment ++ keys ++ "\x7b",
        "  " ++ ",\n  ".intercalate (tblrHeader g columns o), "\x7d"] ++
      g.rowList.map bodyLine ++ [ending environment] ++ o.closingLines

end LatexTable.Latex
