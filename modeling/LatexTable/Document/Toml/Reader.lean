import LatexTable.Document.Shape
import LatexTable.Document.Toml.Number
import LatexTable.Document.Toml.Table
import LatexTable.Document.Toml.Writer
/-! Reading TOML text: lines with headers and fields, values over one or more lines. -/
namespace LatexTable.Toml
open Text

def isSpace (c : Char) : Bool := c = ' ' || c = '\t'

def skipSpace (cs : List Char) : List Char := cs.dropWhile isSpace

/-- Control characters that may stand in no comment and no text. -/
def isForbidden (c : Char) : Bool := (c.toNat < 32 && c ≠ '\t') || c.toNat = 127

/-- Skips spaces, line ends and comments. -/
def skipLines : Bool → List Char → Option (List Char)
  | _, [] => some []
  | _, '\n' :: cs => skipLines false cs
  | _, '\r' :: '\n' :: cs => skipLines false cs
  | true, c :: cs => if isForbidden c then none else skipLines true cs
  | false, c :: cs =>
    if isSpace c then skipLines false cs
    else if c = '#' then skipLines true cs
    else some (c :: cs)

/-- The character with a code, unless the code belongs to none. -/
def charOf? (code : Nat) : Option Char :=
  if code < 0xD800 || (0xE000 ≤ code && code < 0x110000) then some (Char.ofNat code) else none

def readHex (n : Nat) (cs : List Char) : Option (Char × List Char) := do
  let digits := cs.take n
  if digits.length = n && digits.all isHexDigit then
    let c ← charOf? (digitsValue 16 digits)
    return (c, cs.drop n)
  else none

/-- An escape after its backslash. -/
def readEscape : List Char → Option (Char × List Char)
  | [] => none
  | c :: cs =>
    if c = 'b' then some ('\x08', cs)
    else if c = 't' then some ('\t', cs)
    else if c = 'n' then some ('\n', cs)
    else if c = 'f' then some ('\x0c', cs)
    else if c = 'r' then some ('\r', cs)
    else if c = '"' || c = '\\' then some (c, cs)
    else if c = 'u' then readHex 4 cs
    else if c = 'U' then readHex 8 cs
    else none

/-- A text on one line, up to its closing mark. -/
def readShort (mark : Char) (escapes : Bool) : Nat → List Char → List Char →
    Option (String × List Char)
  | 0, _, _ => none
  | _, _, [] => none
  | fuel + 1, read, c :: cs =>
    if c = mark then some (String.ofList read.reverse, cs)
    else if escapes && c = '\\' then
      match readEscape cs with
      | some (e, rest) => readShort mark escapes fuel (e :: read) rest
      | none => none
    else if isForbidden c then none
    else readShort mark escapes fuel (c :: read) cs

/-- Skips spaces and line ends. -/
def skipBlank : List Char → List Char
  | '\n' :: cs => skipBlank cs
  | '\r' :: '\n' :: cs => skipBlank cs
  | c :: cs => if isSpace c then skipBlank cs else c :: cs
  | [] => []

/-- Skips white space after a backslash at the end of a line, `none` when the line goes on. -/
def skipBreak (cs : List Char) : Option (List Char) :=
  match skipSpace cs with
  | '\n' :: rest => some (skipBlank rest)
  | '\r' :: '\n' :: rest => some (skipBlank rest)
  | _ => none

/-- A text over lines, up to three closing marks; up to two marks more belong to the text. -/
def readLong (mark : Char) (escapes : Bool) : Nat → List Char → List Char →
    Option (String × List Char)
  | 0, _, _ => none
  | _, _, [] => none
  | fuel + 1, read, c :: cs =>
    if c = mark then
      let marks := 1 + (cs.takeWhile (· = mark)).length
      let rest := cs.dropWhile (· = mark)
      if marks < 3 then readLong mark escapes fuel (List.replicate marks mark ++ read) rest
      else if marks ≤ 5 then
        some (String.ofList (List.replicate (marks - 3) mark ++ read).reverse, rest)
      else none
    else if escapes && c = '\\' then
      match readEscape cs with
      | some (e, rest) => readLong mark escapes fuel (e :: read) rest
      | none =>
        match skipBreak cs with
        | some rest => readLong mark escapes fuel read rest
        | none => none
    else if c = '\n' then readLong mark escapes fuel ('\n' :: read) cs
    else if c = '\r' then
      match cs with
      | '\n' :: rest => readLong mark escapes fuel ('\n' :: read) rest
      | _ => none
    else if isForbidden c then none
    else readLong mark escapes fuel (c :: read) cs

/-- A line end right after the opening marks is not part of the text. -/
def skipFirstBreak (cs : List Char) : List Char :=
  match cs with
  | '\n' :: rest => rest
  | '\r' :: '\n' :: rest => rest
  | cs => cs

def readText (fuel : Nat) (cs : List Char) : Option (String × List Char) :=
  match cs with
  | '"' :: '"' :: '"' :: rest => readLong '"' true fuel [] (skipFirstBreak rest)
  | '\'' :: '\'' :: '\'' :: rest => readLong '\'' false fuel [] (skipFirstBreak rest)
  | '"' :: rest => readShort '"' true fuel [] rest
  | '\'' :: rest => readShort '\'' false fuel [] rest
  | _ => none

/-- One part of a name. -/
def readKeyPart (cs : List Char) : Option (String × List Char) :=
  match cs with
  | '"' :: rest => readShort '"' true (rest.length + 1) [] rest
  | '\'' :: rest => readShort '\'' false (rest.length + 1) [] rest
  | cs =>
    let name := cs.takeWhile isBareKeyChar
    if name.isEmpty then none else some (String.ofList name, cs.dropWhile isBareKeyChar)

/-- How many levels of arrays and tables, or parts of a name, are too many. -/
def levelLimit : Nat := 80

/-- A name in at most so many parts with points between them. -/
def readKeyParts : Nat → List Char → Option (List String × List Char)
  | 0, _ => none
  | limit + 1, cs => do
    let (part, rest) ← readKeyPart (skipSpace cs)
    match skipSpace rest with
    | '.' :: rest => do
      let (parts, rest) ← readKeyParts limit rest
      return (part :: parts, rest)
    | rest => return ([part], rest)

def readKey (cs : List Char) : Option (List String × List Char) := readKeyParts (levelLimit - 1) cs

def isTokenChar (c : Char) : Bool :=
  isAsciiLetter c || isAsciiDigit c || c = '_' || c = '+' || c = '-' || c = '.' || c = ':'

/-- The token of a word, number, date or time. A date may go on behind a space with its time. -/
def cutToken (cs : List Char) : List Char × List Char :=
  let token := cs.takeWhile isTokenChar
  let rest := cs.dropWhile isTokenChar
  match readDate token, rest with
  | some [], ' ' :: a :: b :: ':' :: more =>
    if isAsciiDigit a && isAsciiDigit b then
      (token ++ ' ' :: a :: b :: ':' :: more.takeWhile isTokenChar, more.dropWhile isTokenChar)
    else (token, rest)
  | _, _ => (token, rest)

/-- A date or time is a record with a single field, whose name no document knows. -/
def tokenNode? (token : List Char) : Option Node :=
  if token = ['t', 'r', 'u', 'e'] then some (.flag true)
  else if token = ['f', 'a', 'l', 's', 'e'] then some (.flag false)
  else if isMoment token then some (.record [("moment", .foreign)])
  else number? token

/-- A name, an equals sign and what follows. -/
def readAssignment (cs : List Char) : Option (List String × List Char) := do
  let (path, rest) ← readKey cs
  match skipSpace rest with
  | '=' :: rest => return (path, skipSpace rest)
  | _ => none

mutual

/-- A value, in which arrays and tables may go so many levels deeper. -/
def readValue : Nat → Nat → List Char → Option (Node × List Char)
  | 0, _, _ => none
  | fuel + 1, levels, cs =>
    match levels, cs with
    | _, '"' :: _ => (readText fuel cs).map fun (s, rest) => (.text s, rest)
    | _, '\'' :: _ => (readText fuel cs).map fun (s, rest) => (.text s, rest)
    | 0, '[' :: _ => none
    | 0, '\x7b' :: _ => none
    | levels + 1, '[' :: rest =>
      (readItems fuel levels rest).map fun (items, rest) => (.list items, rest)
    | levels + 1, '\x7b' :: rest =>
      match skipSpace rest with
      | '\x7d' :: rest => some (.record [], rest)
      | rest =>
        (readInline fuel levels root rest).map fun (table, rest) => (table.toNode, rest)
    | _, cs =>
      let (token, rest) := cutToken cs
      (tokenNode? token).map fun node => (node, rest)

/-- Items up to the closing bracket; a comma may stand behind the last one. -/
def readItems : Nat → Nat → List Char → Option (List Node × List Char)
  | 0, _, _ => none
  | fuel + 1, levels, cs =>
    match skipLines false cs with
    | none => none
    | some (']' :: rest) => some ([], rest)
    | some cs =>
      match readValue fuel levels cs with
      | none => none
      | some (item, rest) =>
        match skipLines false rest with
        | some (']' :: rest) => some ([item], rest)
        | some (',' :: rest) =>
          (readItems fuel levels rest).map fun (items, rest) => (item :: items, rest)
        | _ => none

/-- Fields of a table on one line, up to the closing brace. -/
def readInline : Nat → Nat → Item → List Char → Option (Item × List Char)
  | 0, _, _, _ => none
  | fuel + 1, levels, table, cs =>
    match readAssignment cs with
    | none => none
    | some (path, rest) =>
      match readValue fuel levels rest with
      | none => none
      | some (node, rest) =>
        match table.addField [] path node with
        | none => none
        | some table =>
          match skipSpace rest with
          | '\x7d' :: rest => some (table, rest)
          | ',' :: rest => readInline fuel levels table rest
          | _ => none

end

/-- The end of a line: nothing more stands on it but a comment. -/
def isLineEnd (cs : List Char) : Bool :=
  match skipSpace cs with
  | [] => true
  | '\n' :: _ => true
  | '\r' :: '\n' :: _ => true
  | '#' :: _ => true
  | _ => false

/-- The path of a header, up to its closing brackets. -/
def readHeader (cs : List Char) : Option (Bool × List String × List Char) :=
  match cs with
  | '[' :: rest => do
    let (path, rest) ← readKey rest
    match rest with
    | ']' :: ']' :: rest => return (true, path, rest)
    | _ => none
  | cs => do
    let (path, rest) ← readKey cs
    match rest with
    | ']' :: rest => return (false, path, rest)
    | _ => none

/-- The lines of a document; `header` is the path of the table that the fields belong to. -/
def readLines : Nat → List String → Item → List Char → Option Item
  | 0, _, _, _ => none
  | fuel + 1, header, table, cs =>
    match skipLines false cs with
    | none => none
    | some [] => some table
    | some ('[' :: rest) => do
      let (array, path, rest) ← readHeader rest
      let table ← table.openHeader array path
      if isLineEnd rest then readLines fuel path table rest else none
    | some cs => do
      let (path, rest) ← readAssignment cs
      let (node, rest) ← readValue fuel (levelLimit - 1) rest
      let table ← table.addField header path node
      if isLineEnd rest then readLines fuel header table rest else none

/-- The value of a whole text; a byte order mark at its beginning is passed over. Every line takes a
character, and so does every second step inside a value. -/
def read (s : String) : Option Node :=
  let cs := match s.toList with
    | c :: cs => if c.toNat = 0xFEFF then cs else c :: cs
    | [] => []
  (readLines (2 * cs.length + 3) [] root cs).map Item.toNode

/-- A word may be the name of an empty array or table, and an array may be longer than the table
that it stands for. -/
def conventions : Conventions where
  isNoValue
    | .list [] => true
    | .record [] => true
    | _ => false
  surplus := true

end LatexTable.Toml
