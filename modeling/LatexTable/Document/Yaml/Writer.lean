import LatexTable.Document.Scalar
import LatexTable.Document.Yaml.Chars
/-!
YAML text of a tree, in blocks. A text stands without quotes when it comes back as the same text, or
else in single quotes; a text over lines stands as a literal block; double quotes take what is left.
-/
namespace LatexTable.Yaml

/-- What decides how a text can be written. -/
structure TextShape where
  special : Bool := false
  breaks : Bool := false
  leadingSpace : Bool := false
  leadingBreak : Bool := false
  trailingSpace : Bool := false
  trailingBreak : Bool := false
  breakSpace : Bool := false
  spaceBreak : Bool := false
  indicators : Bool := false
  deriving DecidableEq, Repr

/-- Whether a pair of neighbours with the two properties occurs. -/
def hasPair (p q : Char → Bool) (cs : List Char) : Bool :=
  (cs.zip cs.tail).any fun (c, d) => p c && q d

/-- Whether a colon stands before white space or at the end. -/
def hasColonGap : List Char → Bool
  | [] => false
  | c :: cs => (c = ':' && atGap cs) || hasColonGap cs

/-- Whether the beginning of a text, or a colon or number sign in it, would be read as structure. -/
def hasIndicators (cs : List Char) : Bool :=
  match cs with
  | [] => false
  | c :: rest =>
    (match cs with
      | '-' :: '-' :: '-' :: _ => true
      | '.' :: '.' :: '.' :: _ => true
      | _ => false) ||
    (if ['-', '?', ':'].contains c then atGap rest else isIndicator c) ||
    hasColonGap rest || hasPair (fun c => atGap [c]) (· = '#') cs

def shape (cs : List Char) : TextShape where
  special := cs.any fun c => !isPrintable c
  breaks := cs.any isBreak
  leadingSpace := cs.head? = some ' '
  leadingBreak := cs.head?.any isBreak
  trailingSpace := cs.getLast? = some ' '
  trailingBreak := cs.getLast?.any isBreak
  breakSpace := hasPair isBreak (· = ' ') cs
  spaceBreak := hasPair (· = ' ') isBreak cs
  indicators := hasIndicators cs

namespace TextShape

def takesPlain (s : TextShape) : Bool :=
  !(s.special || s.breaks || s.leadingSpace || s.leadingBreak || s.trailingSpace ||
    s.trailingBreak || s.breakSpace || s.spaceBreak || s.indicators)

def takesSingle (s : TextShape) : Bool := !(s.special || s.breakSpace || s.spaceBreak)

def takesBlock (s : TextShape) : Bool := !(s.special || s.trailingSpace || s.spaceBreak)

end TextShape

def spaces (n : Nat) : List Char := List.replicate n ' '

/-- The text in single quotes; a line that follows a line separator is indented. -/
def singleFrom (indent : Nat) : Bool → List Char → List Char
  | broken, [] => if broken then spaces indent else []
  | broken, c :: cs =>
    if isBreak c then c :: singleFrom indent true cs
    else
      (if broken then spaces indent else []) ++ (if c = '\'' then ['\'', '\''] else [c]) ++
        singleFrom indent false cs

def hexDigits (width n : Nat) : List Char :=
  let digits := (Nat.toDigits 16 n).map Char.toUpper
  List.replicate (width - digits.length) '0' ++ digits

/-- The letter of an escape that has one. -/
def escapeLetter? (c : Char) : Option Char :=
  [(0x00, '0'), (0x07, 'a'), (0x08, 'b'), (0x09, 't'), (0x0A, 'n'), (0x0B, 'v'), (0x0C, 'f'),
    (0x0D, 'r'), (0x1B, 'e'), (0x22, '"'), (0x5C, '\\'), (0x85, 'N'), (0xA0, '_'), (0x2028, 'L'),
    (0x2029, 'P')].lookup c.toNat

def escapeChar (c : Char) : List Char :=
  if isPrintable c && !isBreak c && c ≠ '"' && c ≠ '\\' then [c]
  else
    match escapeLetter? c with
    | some letter => ['\\', letter]
    | none =>
      if c.toNat ≤ 0xFF then '\\' :: 'x' :: hexDigits 2 c.toNat
      else if c.toNat ≤ 0xFFFF then '\\' :: 'u' :: hexDigits 4 c.toNat
      else '\\' :: 'U' :: hexDigits 8 c.toNat

/-- Lines of a literal block; `fresh` tells that a line begins. -/
def literalFrom (indent : Nat) : Bool → List Char → List Char
  | _, [] => []
  | fresh, c :: cs =>
    if isBreak c then c :: literalFrom indent true cs
    else (if fresh then spaces indent else []) ++ c :: literalFrom indent false cs

/-- How many line ends at the end of a literal block belong to the text: none, one, or all. -/
def chomping (cs : List Char) : List Char :=
  match cs.reverse with
  | [] => ['-']
  | c :: rest =>
    if !isBreak c then ['-']
    else
      match rest with
      | [] => ['+']
      | d :: _ => if isBreak d then ['+'] else []

/-- The mark of a literal block. The indentation is given when the text does not show it. -/
def literalHeader (cs : List Char) : List Char :=
  let hidden := match cs with
    | c :: _ => c = ' ' || isBreak c
    | [] => false
  '|' :: ((if hidden then ['2'] else []) ++ chomping cs)

/-- A text as it stands behind a dash or a name, with the end of its last line. -/
def textLine (indent : Nat) (s : String) : String :=
  let cs := s.toList
  let form := shape cs
  let double := "\"" ++ String.ofList (cs.flatMap escapeChar) ++ "\"\n"
  if cs.contains '\n' then
    if form.takesBlock then
      let body := String.ofList (literalHeader cs ++ '\n' :: literalFrom indent true cs)
      if form.trailingBreak then body else body ++ "\n"
    else double
  else if Scalar.isText s && form.takesPlain then s ++ "\n"
  else if form.takesSingle then "\x27" ++ String.ofList (singleFrom indent false cs) ++ "\x27\n"
  else double

def indentation (n : Nat) : String := String.ofList (spaces n)

/-- Entries of a block, all but the first of which are indented. -/
def block (indent : Nat) (entries : List String) : String :=
  (indentation indent).intercalate entries

mutual

/-- A value behind a dash: a collection begins on the same line. -/
def writeEntry (indent : Nat) : Node → String
  | .null | .foreign | .unreadable => "null\n"
  | .flag b => if b then "true\n" else "false\n"
  | .number n => toString n ++ "\n"
  | .text s => textLine indent s
  | .list [] => "[]\n"
  | .list items => block indent (writeItems indent items)
  | .record [] => "\x7b\x7d\n"
  | .record fields => block indent (writeFields indent fields)

/-- Items of a list that stands at the given column. -/
def writeItems (indent : Nat) : List Node → List String
  | [] => []
  | item :: rest => ("- " ++ writeEntry (indent + 2) item) :: writeItems indent rest

/-- Fields of a record that stands at the given column. A list stands below its name at the same
column, a record below its name two columns further. -/
def writeFields (indent : Nat) : List (String × Node) → List String
  | [] => []
  | (name, .list (item :: items)) :: rest =>
    (name ++ ":\n" ++ indentation indent ++ block indent (writeItems indent (item :: items))) ::
      writeFields indent rest
  | (name, .record (field :: fields)) :: rest =>
    (name ++ ":\n" ++ indentation (indent + 2) ++
      block (indent + 2) (writeFields (indent + 2) (field :: fields))) :: writeFields indent rest
  | (name, value) :: rest =>
    (name ++ ": " ++ writeEntry (indent + 2) value) :: writeFields indent rest

end

def write (node : Node) : String := writeEntry 0 node

end LatexTable.Yaml
