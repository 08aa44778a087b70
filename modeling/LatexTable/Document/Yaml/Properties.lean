import LatexTable.Document.Yaml.Place
import LatexTable.Document.Yaml.Token
/-! Anchors, tags and directives. -/
namespace LatexTable.Yaml
open Text

/-- The name of an anchor. -/
def readAnchor (p : Place) : Option (String × Place) :=
  let name := p.rest.takeWhile isWordChar
  let q := p.ahead name.length
  let isEnded := atGap q.rest ||
    q.rest.head?.any fun c => ['?', ':', ',', ']', '\x7d', '%', '@', '\x60'].contains c
  if name.isEmpty || !isEnded then none else some (String.ofList name, q)

/-- The value of two hexadecimal digits behind a percent sign. -/
def octet? : List Char → Option Nat
  | '%' :: a :: b :: _ =>
    if isHexDigit a && isHexDigit b then some (digitsValue 16 [a, b]) else none
  | _ => none

/-- How many octets a character takes, by its first. -/
def octetCount? (first : Nat) : Option Nat :=
  if first < 0x80 then some 1
  else if 0xC0 ≤ first && first < 0xE0 then some 2
  else if 0xE0 ≤ first && first < 0xF0 then some 3
  else if 0xF0 ≤ first && first < 0xF8 then some 4
  else none

/-- So many further octets of a character, in base 64. -/
def readOctets : Nat → Nat → List Char → Option (Nat × List Char)
  | 0, code, cs => some (code, cs)
  | count + 1, code, cs =>
    match octet? cs with
    | some octet =>
      if 0x80 ≤ octet && octet < 0xC0 then
        readOctets count (code * 0x40 + (octet - 0x80)) (cs.drop 3)
      else none
    | none => none

/-- A character as octets behind percent signs. -/
def readEscaped (cs : List Char) : Option (Char × List Char) := do
  let first ← octet? cs
  let count ← octetCount? first
  let lead := if count = 1 then first else first % Nat.pow 2 (7 - count)
  let (code, rest) ← readOctets (count - 1) lead (cs.drop 3)
  return (Char.ofNat code, rest)

/-- Characters of a tag; between angle brackets three more may stand. -/
def isTagChar (brackets : Bool) (c : Char) : Bool :=
  isWordChar c ||
    [';', '/', '?', ':', '@', '&', '=', '+', '$', '.', '!', '~', '*', '\'', '(', ')'].contains c ||
    (brackets && [',', '[', ']'].contains c)

/-- The characters of a tag. -/
def readTagChars (brackets : Bool) : Nat → List Char → List Char → Option (List Char × List Char)
  | 0, _, _ => none
  | _, read, [] => some (read.reverse, [])
  | fuel + 1, read, c :: cs =>
    if c = '%' then
      match readEscaped (c :: cs) with
      | some (e, rest) => readTagChars brackets fuel (e :: read) rest
      | none => none
    else if isTagChar brackets c then readTagChars brackets fuel (c :: read) cs
    else some (read.reverse, c :: cs)

/-- The characters of a tag at a place, and the place behind them. -/
def readTagText (brackets : Bool) (p : Place) : Option (String × Place) :=
  (readTagChars brackets (p.rest.length + 1) [] p.rest).map fun (cs, rest) =>
    (String.ofList cs, p.ahead (p.rest.length - rest.length))

/-- The handle and the suffix of a tag behind its exclamation mark. -/
def readTagParts (p : Place) : Option (String × String × Place) :=
  match p.rest with
  | '<' :: _ => do
    let (text, q) ← readTagText true (p.ahead 1)
    if text.isEmpty || q.rest.head? ≠ some '>' then none else return ("", text, q.ahead 1)
  | _ => do
    let word := p.rest.takeWhile isWordChar
    let q := p.ahead word.length
    if q.rest.head? = some '!' then
      let (suffix, r) ← readTagText false (q.ahead 1)
      if suffix.isEmpty then none
      else return (String.ofList ('!' :: word ++ ['!']), suffix, r)
    else
      let (more, r) ← readTagText false q
      let suffix := String.ofList word ++ more
      return if suffix.isEmpty then ("", "!", r) else ("!", suffix, r)

/-- A tag behind its exclamation mark. Between brackets a comma may follow it at once. -/
def readTag (flow : Bool) (p : Place) : Option (Token × Place) := do
  let (handle, suffix, q) ← readTagParts p
  if (flow && q.rest.head? = some ',') || atGap q.rest then return (.tag handle suffix, q) else none

/-- One part of a version, of at most nine digits. -/
def readVersionPart (p : Place) : Option (Nat × Place) :=
  let digits := p.rest.takeWhile isAsciiDigit
  if digits.isEmpty || 9 < digits.length then none
  else some (digitsValue 10 digits, p.ahead digits.length)

def readVersion (p : Place) : Option (Token × Place) := do
  let (major, q) ← readVersionPart (p.past isSpace)
  if q.rest.head? ≠ some '.' then none
  else
    let (minor, r) ← readVersionPart (q.ahead 1)
    return (.version major minor, r)

/-- A handle for tags and what it stands for. -/
def readHandle (p : Place) : Option (Token × Place) := do
  let p := p.past isSpace
  if p.rest.head? ≠ some '!' then none
  else
    let p := p.ahead 1
    let word := p.rest.takeWhile isWordChar
    let q := p.ahead word.length
    let closed := q.rest.head? = some '!'
    let q := if closed then q.ahead 1 else q
    if (!closed && !word.isEmpty) || !q.rest.head?.any isSpace then none
    else
      let name := String.ofList ('!' :: word ++ if closed then ['!'] else [])
      let (lead, r) ← readTagText true (q.past isSpace)
      if lead.isEmpty || !atGap r.rest then none else return (.handle name lead, r)

/-- A directive behind its percent sign, to the end of its line. -/
def readDirective (p : Place) : Option (Token × Place) := do
  let name := p.rest.takeWhile isWordChar
  let q := p.ahead name.length
  let (token, r) ←
    if !atGap q.rest then none
    else if name = ['Y', 'A', 'M', 'L'] then readVersion q
    else if name = ['T', 'A', 'G'] then readHandle q
    else none
  let r := r.skipLineRest
  if r.atLineEnd then return (token, r.ahead 1) else none

end LatexTable.Yaml
