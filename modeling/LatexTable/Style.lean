import LatexTable.Color
/-! The style of a cell. An unset part leaves the default of its column and table. -/
namespace LatexTable
open Text

inductive HAlign where
  | left | center | right | justify
  deriving DecidableEq, Repr

namespace HAlign

def letter : HAlign → Char
  | .left => 'l'
  | .center => 'c'
  | .right => 'r'
  | .justify => 'j'

def name : HAlign → String
  | .left => "left"
  | .center => "center"
  | .right => "right"
  | .justify => "justify"

def ofName? (s : String) : Option HAlign :=
  match nameKey s with
  | "left" | "l" => some .left
  | "center" | "centre" | "c" => some .center
  | "right" | "r" => some .right
  | "justify" | "j" => some .justify
  | _ => none

end HAlign

inductive VAlign where
  | head | middle | foot
  deriving DecidableEq, Repr

namespace VAlign

/-- The letter that a cell key takes. -/
def keyLetter : VAlign → Char
  | .head => 'h'
  | .middle => 'm'
  | .foot => 'f'

/-- The position argument of a cell over several rows. -/
def multirowLetter : VAlign → Char
  | .head => 't'
  | .middle => 'c'
  | .foot => 'b'

def name : VAlign → String
  | .head => "head"
  | .middle => "middle"
  | .foot => "foot"

def ofName? (s : String) : Option VAlign :=
  match nameKey s with
  | "head" | "top" | "h" | "t" => some .head
  | "middle" | "m" => some .middle
  | "foot" | "bottom" | "f" | "b" => some .foot
  | _ => none

end VAlign

structure CellStyle where
  bold : Option Bool := none
  italic : Option Bool := none
  halign : Option HAlign := none
  valign : Option VAlign := none
  foreground : Option Color := none
  background : Option Color := none
  deriving DecidableEq, Repr

namespace CellStyle

def unset : CellStyle := {}

def isUnset (s : CellStyle) : Bool := s = unset

def isBold (s : CellStyle) : Bool := s.bold.getD false

def isItalic (s : CellStyle) : Bool := s.italic.getD false

/-- Whether the style changes anything; an emphasis that is switched off does not. -/
def hasEffect (s : CellStyle) : Bool :=
  s.isBold || s.isItalic || s.halign.isSome || s.valign.isSome || s.foreground.isSome ||
    s.background.isSome

end CellStyle

/-- A change of style that the user asks for. The toggles take their value from the focused cell. -/
inductive StyleCommand where
  | toggleBold
  | toggleItalic
  | halign (value : Option HAlign)
  | valign (value : Option VAlign)
  | foreground (value : Option Color)
  | background (value : Option Color)
  | clear
  deriving DecidableEq, Repr

/-- The style of a cell after the command, `focused` being the style of the focused cell. -/
def StyleCommand.apply (command : StyleCommand) (focused style : CellStyle) : CellStyle :=
  match command with
  | .toggleBold => { style with bold := some (!focused.isBold) }
  | .toggleItalic => { style with italic := some (!focused.isItalic) }
  | .halign value => { style with halign := value }
  | .valign value => { style with valign := value }
  | .foreground value => { style with foreground := value }
  | .background value => { style with background := value }
  | .clear => .unset

end LatexTable
