import LatexTable.Error
import LatexTable.Text.Letters
/-!
Colours as the LaTeX colour package reads them: an expression of names and percentages such as
`red!30!white`, or six hexadecimal digits.
-/
namespace LatexTable
open Text

inductive Color where
  | named (expression : String)
  | html (digits : String)
  deriving DecidableEq, Repr

namespace Color

/-- A colour name: a letter, then letters and digits. -/
def isName : List Char → Bool
  | [] => false
  | c :: cs => isAsciiLetter c && cs.all fun d => isAsciiLetter d || isAsciiDigit d

/-- One to three digits. -/
def isPercentage (cs : List Char) : Bool :=
  1 ≤ cs.length && cs.length ≤ 3 && cs.all isAsciiDigit

/-- Percentages, each with an optional name behind it. -/
def areMixes : List (List Char) → Bool
  | [] => true
  | [percentage] => isPercentage percentage
  | percentage :: next :: rest =>
    isPercentage percentage &&
      if isName next then areMixes rest else areMixes (next :: rest)

/-- A name, then its mixes; `!` stands between the parts. -/
def isExpression (cs : List Char) : Bool :=
  match splitAt '!' cs with
  | [] => false
  | name :: mixes => isName name && areMixes mixes

/-- The digits of a hexadecimal colour. Without the leading `#` one of them has to be decimal, so
that a word like `decade` stays a name. -/
def hexDigits? (cs : List Char) : Option (List Char) :=
  let marked := cs.head? = some '#'
  let digits := if marked then cs.tail else cs
  if digits.length = 6 && digits.all isHexDigit && (marked || digits.any isAsciiDigit) then
    some digits
  else none

def parse? (s : String) : Option Color :=
  let t := trim s
  match hexDigits? t.toList with
  | some digits => some (.html (String.ofList (digits.map Char.toUpper)))
  | none => if isExpression t.toList then some (.named t) else none

def parse (s : String) : TableResult Color :=
  match parse? s with
  | some c => .ok c
  | none => .error (.invalidColor s)

/-- The text from which `parse` gives the colour back. -/
def text : Color → String
  | .named expression => expression
  | .html digits => "#" ++ digits

/-- The names that an expression mixes. -/
def baseNames : Color → List String
  | .named expression =>
    ((splitAt '!' expression.toList).filter fun part => !part.all isAsciiDigit).map String.ofList
  | .html _ => []

/-- The arguments of the commands that switch to the colour. -/
def arguments : Color → String
  | .named expression => "\x7b" ++ expression ++ "\x7d"
  | .html digits => "[HTML]\x7b" ++ digits ++ "\x7d"

/-- The name under which a key can refer to the colour. -/
def keyName : Color → String
  | .named expression => expression
  | .html digits => "tgrid" ++ digits

/-- The definition that a hexadecimal colour needs before its key name is used. -/
def definition? : Color → Option String
  | .named _ => none
  | .html digits =>
    some ("\\definecolor\x7btgrid" ++ digits ++ "\x7d\x7bHTML\x7d\x7b" ++ digits ++ "\x7d")

/-- Names that the colour package always defines. -/
def standardNames : List String :=
  ["black", "blue", "brown", "cyan", "darkgray", "gray", "green", "lightgray", "lime", "magenta",
   "olive", "orange", "pink", "purple", "red", "teal", "violet", "white", "yellow"]

/-- Names that the package option `dvipsnames` defines. -/
def dvipsNames : List String :=
  ["Apricot", "Aquamarine", "Bittersweet", "Black", "Blue", "BlueGreen", "BlueViolet", "BrickRed",
   "Brown", "BurntOrange", "CadetBlue", "CarnationPink", "Cerulean", "CornflowerBlue", "Cyan",
   "Dandelion", "DarkOrchid", "Emerald", "ForestGreen", "Fuchsia", "Goldenrod", "Gray", "Green",
   "GreenYellow", "JungleGreen", "Lavender", "LimeGreen", "Magenta", "Mahogany", "Maroon", "Melon",
   "MidnightBlue", "Mulberry", "NavyBlue", "OliveGreen", "Orange", "OrangeRed", "Orchid", "Peach",
   "Periwinkle", "PineGreen", "Plum", "ProcessBlue", "Purple", "RawSienna", "Red", "RedOrange",
   "RedViolet", "Rhodamine", "RoyalBlue", "RoyalPurple", "RubineRed", "Salmon", "SeaGreen", "Sepia",
   "SkyBlue", "SpringGreen", "Tan", "TealBlue", "Thistle", "Turquoise", "Violet", "VioletRed",
   "White", "WildStrawberry", "Yellow", "YellowGreen", "YellowOrange"]

def needsDvipsNames (c : Color) : Bool := c.baseNames.any dvipsNames.contains

/-- Names that no package option defines. -/
def unknownNames (c : Color) : List String :=
  c.baseNames.filter fun name => !standardNames.contains name && !dvipsNames.contains name

end Color
end LatexTable
