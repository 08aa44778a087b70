import LatexTable.Decimal.Binary64
import LatexTable.Document.Shape
import LatexTable.Error
/-!
Reading JSON text. A text that is well formed but has no value, such as half of a surrogate pair or
a number beyond the largest one, is read as an unreadable value.
-/
namespace LatexTable.Json
open Decimal Text

def isSpace (c : Char) : Bool := c = ' ' || c = '\t' || c = '\n' || c = '\r'

def skipSpace (cs : List Char) : List Char := cs.dropWhile isSpace

/-- Four hexadecimal digits. -/
def readHex4 : List Char → Option (Nat × List Char)
  | a :: b :: c :: d :: rest =>
    if [a, b, c, d].all isHexDigit then some (digitsValue 16 [a, b, c, d], rest) else none
  | _ => none

/-- The character of an escape with one letter. -/
def shortEscape? (c : Char) : Option Char :=
  if c = '"' || c = '\\' || c = '/' then some c
  else if c = 'b' then some '\x08'
  else if c = 'f' then some '\x0c'
  else if c = 'n' then some '\n'
  else if c = 'r' then some '\r'
  else if c = 't' then some '\t'
  else none

def isHighSurrogate (n : Nat) : Bool := 0xD800 ≤ n && n < 0xDC00

def isLowSurrogate (n : Nat) : Bool := 0xDC00 ≤ n && n < 0xE000

/-- The character of a code escape, `none` for half of a surrogate pair. -/
def readCode (code : Nat) (rest : List Char) : Option Char × List Char :=
  if isHighSurrogate code then
    match rest with
    | '\\' :: 'u' :: more =>
      match readHex4 more with
      | some (low, more) =>
        if isLowSurrogate low then
          (some (Char.ofNat (0x10000 + (code - 0xD800) * 0x400 + (low - 0xDC00))), more)
        else (none, rest)
      | none => (none, rest)
    | _ => (none, rest)
  else if isLowSurrogate code then (none, rest)
  else (some (Char.ofNat code), rest)

/-- The rest of a text after its opening quote. `read` holds what has been read in reverse; it is
`none` once a character had no value. -/
def readText : Nat → Option (List Char) → List Char → Option (Option String × List Char)
  | 0, _, _ => none
  | _, _, [] => none
  | fuel + 1, read, c :: cs =>
    if c = '"' then some (read.map fun chars => String.ofList chars.reverse, cs)
    else if c = '\\' then
      match cs with
      | 'u' :: more =>
        match readHex4 more with
        | none => none
        | some (code, more) =>
          let (char?, rest) := readCode code more
          readText fuel (read.bind fun chars => char?.map (· :: chars)) rest
      | e :: more =>
        match shortEscape? e with
        | none => none
        | some char => readText fuel (read.map (char :: ·)) more
      | [] => none
    else if c.toNat < 32 then none
    else readText fuel (read.map (c :: ·)) cs

/-- Whether the characters of a number stand in the order that JSON demands. -/
def isNumber (cs : List Char) : Bool :=
  let cs := match cs with
    | '-' :: rest => rest
    | cs => cs
  let whole := cs.takeWhile isAsciiDigit
  let rest := cs.dropWhile isAsciiDigit
  let (fraction, rest) : Option (List Char) × List Char := match rest with
    | '.' :: more => (some (more.takeWhile isAsciiDigit), more.dropWhile isAsciiDigit)
    | rest => (none, rest)
  let exponent := match rest with
    | [] => true
    | c :: more =>
      let digits := match more with
        | '+' :: more | '-' :: more => more
        | more => more
      (c = 'e' || c = 'E') && !digits.isEmpty && digits.all isAsciiDigit
  !whole.isEmpty && (whole.length = 1 || whole.head? ≠ some '0') && fraction ≠ some [] && exponent

/-- The value of a number: an index if it is written as one. -/
def numberNode (cs : List Char) : Node :=
  if cs.all isAsciiDigit && digitsValue 10 cs ≤ maxIndex then .number (digitsValue 10 cs)
  else
    match Binary64.read? (String.ofList cs) with
    | some (.finite _) => .foreign
    | _ => .unreadable

def isNumberChar (c : Char) : Bool :=
  isAsciiDigit c || c = '+' || c = '-' || c = '.' || c = 'e' || c = 'E'

def readNumber (cs : List Char) : Option (Node × List Char) :=
  let token := cs.takeWhile isNumberChar
  if isNumber token then some (numberNode token, cs.dropWhile isNumberChar) else none

/-- A record, unless one of its names has no value. -/
def recordNode (fields : List (Option String × Node)) : Node :=
  match fields.mapM fun (name, value) => name.map (·, value) with
  | some fields => .record fields
  | none => .unreadable

mutual

/-- A value after white space. -/
def readValue : Nat → List Char → Option (Node × List Char)
  | 0, _ => none
  | fuel + 1, cs =>
    match skipSpace cs with
    | 'n' :: 'u' :: 'l' :: 'l' :: rest => some (.null, rest)
    | 't' :: 'r' :: 'u' :: 'e' :: rest => some (.flag true, rest)
    | 'f' :: 'a' :: 'l' :: 's' :: 'e' :: rest => some (.flag false, rest)
    | '"' :: rest =>
      (readText fuel (some []) rest).map fun (s, rest) =>
        ((s.map Node.text).getD .unreadable, rest)
    | '[' :: rest =>
      match skipSpace rest with
      | ']' :: rest => some (.list [], rest)
      | rest => (readItems fuel rest).map fun (items, rest) => (.list items, rest)
    | '\x7b' :: rest =>
      match skipSpace rest with
      | '\x7d' :: rest => some (.record [], rest)
      | rest => (readFields fuel rest).map fun (fields, rest) => (recordNode fields, rest)
    | rest => readNumber rest

/-- Items up to the closing bracket. -/
def readItems : Nat → List Char → Option (List Node × List Char)
  | 0, _ => none
  | fuel + 1, cs =>
    match readValue fuel cs with
    | none => none
    | some (item, rest) =>
      match skipSpace rest with
      | ']' :: rest => some ([item], rest)
      | ',' :: rest => (readItems fuel rest).map fun (items, rest) => (item :: items, rest)
      | _ => none

/-- Fields up to the closing brace. -/
def readFields : Nat → List Char → Option (List (Option String × Node) × List Char)
  | 0, _ => none
  | fuel + 1, cs =>
    match skipSpace cs with
    | '"' :: rest =>
      match readText fuel (some []) rest with
      | none => none
      | some (name, rest) =>
        match skipSpace rest with
        | ':' :: rest =>
          match readValue fuel rest with
          | none => none
          | some (value, rest) =>
            match skipSpace rest with
            | '\x7d' :: rest => some ([(name, value)], rest)
            | ',' :: rest =>
              (readFields fuel rest).map fun (fields, rest) => ((name, value) :: fields, rest)
            | _ => none
        | _ => none
    | _ => none

end

/-- The value of a whole text. Every step of the reader takes a character, so twice the length of
the text is enough. -/
def read (s : String) : Option Node :=
  let cs := s.toList
  match readValue (2 * cs.length + 2) cs with
  | some (node, rest) => if (skipSpace rest).isEmpty then some node else none
  | none => none

/-- A word may be the name of a null value. A part of an entry stands inside the document, the list
of entries and the entry, and 127 levels can be read. -/
def conventions : Conventions where
  isNoValue
    | .null => true
    | _ => false
  maxNesting := some 124

end LatexTable.Json
