import LatexTable.Document.Yaml.Place
/-! Reading YAML texts: without quotes, in single or double quotes, and as blocks of lines. -/
namespace LatexTable.Yaml
open Text

/-- White space inside a text. On a line it stays; a line end becomes a space, and of several line
ends the first is dropped. -/
def foldGap (gap : List Char) : List Char :=
  match gap.filter isBreak with
  | [] => gap
  | ['\n'] => [' ']
  | '\n' :: more => more
  | breaks => breaks

/-- Whether a tab stands in the indentation of a line that begins inside the gap. -/
def hasIndentTab (floor : Nat) : Bool → Nat → List Char → Bool
  | _, _, [] => false
  | broken, col, c :: cs =>
    if isBreak c then hasIndentTab floor true 0 cs
    else (broken && c = '\t' && col < floor) || hasIndentTab floor broken (col + 1) cs

/-- Whether a text without quotes begins here. -/
def startsPlain (flow : Bool) (cs : List Char) : Bool :=
  match cs with
  | [] => false
  | c :: rest =>
    if c = '-' then !atGap rest
    else if c = '?' || c = ':' then !flow && !atGap rest
    else !isBlank c && !isIndicator c

/-- The characters up to white space or up to what ends a text without quotes, `none` when a colon
stands before a sign of a collection in brackets. -/
def plainRun (flow : Bool) : List Char → Option (List Char)
  | [] => some []
  | c :: cs =>
    if isBlank c then some []
    else if c = ':' && flow && (cs.head?.any fun d => d = '?' || isFlowIndicator d) then none
    else if c = ':' && atGap cs then some []
    else if flow && isFlowIndicator c then some []
    else (plainRun flow cs).map (c :: ·)

/-- A text without quotes, over lines that are indented to the floor, and whether a line ends
between it and the place behind it. `gap` is the white space before the place. -/
def readPlainFrom (flow : Bool) (floor : Nat) : Nat → List Char → List Char → Place →
    Option (List Char × Bool × Place)
  | 0, _, _, _ => none
  | fuel + 1, read, gap, p =>
    if p.atEnd || p.rest.head? = some '#' || (!flow && gap.any isBreak && p.col < floor) then
      some (read, gap.any isBreak, p)
    else
      match plainRun flow p.rest with
      | none => none
      | some [] => some (read, gap.any isBreak, p)
      | some run =>
        let q := p.ahead run.length
        let (next, r) := q.gap
        if hasIndentTab floor false q.col next then none
        else readPlainFrom flow floor fuel (read ++ foldGap gap ++ run) next r

def readPlain (fuel : Nat) (flow : Bool) (floor : Nat) (p : Place) :
    Option (String × Bool × Place) :=
  (readPlainFrom flow floor fuel [] [] p).map fun (cs, q) => (String.ofList cs, q)

/-- The rest of a text in single quotes, in which a quote is written twice. -/
def readSingle : Nat → List Char → Place → Option (String × Place)
  | 0, _, _ => none
  | fuel + 1, read, p =>
    if p.atEnd then none
    else
      match p.rest with
      | '\'' :: '\'' :: _ => readSingle fuel ('\'' :: read) (p.ahead 2)
      | '\'' :: _ => some (String.ofList read.reverse, p.ahead 1)
      | c :: _ =>
        if isBlank c then readSingle fuel ((foldGap p.gap.1).reverse ++ read) p.gap.2
        else readSingle fuel (c :: read) (p.ahead 1)
      | [] => none

/-- The character of an escape with one letter. -/
def letterEscape? (c : Char) : Option Char :=
  [('0', 0x00), ('a', 0x07), ('b', 0x08), ('t', 0x09), ('\t', 0x09), ('n', 0x0A), ('v', 0x0B),
    ('f', 0x0C), ('r', 0x0D), ('e', 0x1B), (' ', 0x20), ('"', 0x22), ('/', 0x2F), ('\\', 0x5C),
    ('N', 0x85), ('_', 0xA0), ('L', 0x2028), ('P', 0x2029)].lookup c |>.map Char.ofNat

def codeLength? (c : Char) : Option Nat := [('x', 2), ('u', 4), ('U', 8)].lookup c

/-- The character with a code in so many hexadecimal digits. -/
def codeChar? (n : Nat) (cs : List Char) : Option Char :=
  let code := digitsValue 16 cs
  if cs.length = n && cs.all isHexDigit && (code < 0xD800 || (0xE000 ≤ code && code < 0x110000))
  then some (Char.ofNat code)
  else none

/-- The character of an escape after its backslash, and the length of the escape. -/
def escape? : List Char → Option (Char × Nat)
  | [] => none
  | c :: cs =>
    match codeLength? c with
    | some n => (codeChar? n (cs.take n)).map (·, n + 1)
    | none => (letterEscape? c).map (·, 1)

/-- The rest of a text in double quotes. A backslash at the end of a line joins it to the next. -/
def readDouble : Nat → List Char → Place → Option (String × Place)
  | 0, _, _ => none
  | fuel + 1, read, p =>
    if p.atEnd then none
    else
      match p.rest with
      | '"' :: _ => some (String.ofList read.reverse, p.ahead 1)
      | '\\' :: cs =>
        if cs.head?.any isBreak then
          let (gap, q) := (p.ahead 2).gap
          readDouble fuel ((gap.filter isBreak).reverse ++ read) q
        else
          match escape? cs with
          | some (c, n) => readDouble fuel (c :: read) (p.ahead (n + 1))
          | none => none
      | c :: _ =>
        if isBlank c then readDouble fuel ((foldGap p.gap.1).reverse ++ read) p.gap.2
        else readDouble fuel (c :: read) (p.ahead 1)
      | [] => none

/-- How many line ends at the end of a block belong to its text: none, one, or all. -/
inductive Chomping where
  | strip | clip | keep
  deriving DecidableEq, Repr

def Chomping.ofSign? (c : Char) : Option Chomping :=
  if c = '-' then some .strip else if c = '+' then some .keep else none

/-- An indentation that is given with the mark of a block. -/
def indentDigit? (c : Char) : Option Nat :=
  if isAsciiDigit c && c ≠ '0' then some (digitValue c) else none

/-- What stands behind the mark of a block. An indentation of zero is one that is not given. -/
def blockHeader? : List Char → Option (Chomping × Nat)
  | [] => some (.clip, 0)
  | [c] =>
    match Chomping.ofSign? c with
    | some chomping => some (chomping, 0)
    | none => (indentDigit? c).map (.clip, ·)
  | [c, d] =>
    match Chomping.ofSign? c, Chomping.ofSign? d with
    | some chomping, _ => (indentDigit? d).map (chomping, ·)
    | none, some chomping => (indentDigit? c).map (chomping, ·)
    | none, none => none
  | _ => none

/-- The line ends before a line of a block, and the widest indentation seen; `none` at a tab inside
the indentation. -/
def readBreaks (indent : Nat) : Nat → Nat → List Char → Place → Option (Nat × List Char × Place)
  | 0, _, _, _ => none
  | fuel + 1, widest, breaks, p =>
    let run := p.rest.takeWhile (· = ' ')
    let q := p.ahead (if indent = 0 then run.length else min run.length (indent - p.col))
    let widest := max widest q.col
    match q.rest with
    | [] => some (widest, breaks, q)
    | c :: _ =>
      if c = '\t' && (indent = 0 || q.col < indent) then none
      else if isBreak c then readBreaks indent fuel widest (breaks ++ [c]) (q.ahead 1)
      else some (widest, breaks, q)

/-- What has been read of a block: its text, the end of its last line, the line ends behind it, and
whether that line begins with white space. -/
structure BlockText where
  text : List Char := []
  lineEnd : List Char := []
  breaks : List Char := []
  blank : Bool := false
  deriving DecidableEq, Repr

namespace BlockText

/-- The text before a new line. In a folded block two lines without white space at their beginning
are joined by a space. -/
def joined (b : BlockText) (literal blank : Bool) : List Char :=
  let joint :=
    if !literal && b.lineEnd = ['\n'] && !b.blank && !blank then
      if b.breaks.isEmpty then [' '] else []
    else b.lineEnd
  b.text ++ joint ++ b.breaks

def chomped (b : BlockText) (chomping : Chomping) : List Char :=
  match chomping with
  | .strip => b.text
  | .clip => b.text ++ b.lineEnd
  | .keep => b.text ++ b.lineEnd ++ b.breaks

end BlockText

def readBlockLines (literal : Bool) (indent : Nat) : Nat → BlockText → Place →
    Option (BlockText × Place)
  | 0, _, _ => none
  | fuel + 1, b, p =>
    if p.col ≠ indent || p.rest.isEmpty then some (b, p)
    else
      let blank := p.rest.head?.any isSpace
      let line := p.rest.takeWhile fun c => !isBreak c
      let q := p.ahead line.length
      let lineEnd := q.rest.take 1
      match readBreaks indent fuel 0 [] (q.ahead 1) with
      | none => none
      | some (_, breaks, r) =>
        readBlockLines literal indent fuel
          { text := b.joined literal blank ++ line, lineEnd, breaks, blank } r

/-- A block of lines behind its mark. -/
def readBlockText (fuel : Nat) (literal : Bool) (floor : Nat) (p : Place) :
    Option (String × Place) := do
  let marks := p.rest.takeWhile fun c => c = '+' || c = '-' || isAsciiDigit c
  let (chomping, given) ← blockHeader? marks
  let q := (p.ahead marks.length).skipLineRest
  if !q.atLineEnd then none
  else
    let q := q.ahead 1
    let given := if given = 0 then 0 else floor - 1 + given
    let (widest, breaks, q) ← readBreaks given fuel 0 [] q
    let indent := if given = 0 then max (max widest floor) 1 else given
    let (b, q) ← readBlockLines literal indent fuel { breaks } q
    return (String.ofList (b.chomped chomping), q)

end LatexTable.Yaml
