import LatexTable.Text.Letters
/-! The classes of characters that YAML tells apart. -/
namespace LatexTable.Yaml
open Text

def isBreak (c : Char) : Bool :=
  c = '\n' || c = '\r' || c.toNat = 0x85 || c.toNat = 0x2028 || c.toNat = 0x2029

def isSpace (c : Char) : Bool := c = ' ' || c = '\t'

def isBlank (c : Char) : Bool := isSpace c || isBreak c

/-- Characters of the names of anchors and of the handles of tags. -/
def isWordChar (c : Char) : Bool := isAsciiLetter c || isAsciiDigit c || c = '_' || c = '-'

/-- Whether white space, a line end or the end of the text comes next. -/
def atGap (cs : List Char) : Bool :=
  match cs with
  | [] => true
  | c :: _ => isSpace c || isBreak c || c.toNat = 0

/-- Characters that a text is written with as they are. -/
def isPrintable (c : Char) : Bool :=
  c = '\n' || (0x20 ≤ c.toNat && c.toNat ≤ 0x7E) ||
    (0xA0 ≤ c.toNat && c.toNat < 0xFFFE && c.toNat ≠ 0xFEFF) || 0x10000 ≤ c.toNat

def isByteOrderMark (c : Char) : Bool := c.toNat = 0xFEFF

/-- Characters that a YAML text may hold. -/
def isAllowed (c : Char) : Bool :=
  isPrintable c || isByteOrderMark c || c = '\t' || c = '\r' || c.toNat = 0x85

/-- Characters that begin something else than a scalar without quotes. -/
def isIndicator (c : Char) : Bool :=
  ['-', '?', ':', ',', '[', ']', '\x7b', '\x7d', '#', '&', '*', '!', '|', '>', '\'', '"', '%', '@',
    '\x60'].contains c

/-- Characters that structure collections in brackets. -/
def isFlowIndicator (c : Char) : Bool := [',', '[', ']', '\x7b', '\x7d'].contains c

/-- Three dashes or three points, the marks between documents. -/
def isDocumentMark (cs : List Char) : Bool :=
  match cs with
  | '-' :: '-' :: '-' :: rest => atGap rest
  | '.' :: '.' :: '.' :: rest => atGap rest
  | _ => false

end LatexTable.Yaml
