import LatexTable.Document.Yaml.Properties
import LatexTable.Document.Yaml.Scalars
/-!
Cutting a YAML text into tokens. A record begins where the name of its first field stands, which is
known only at the colon behind the name. So the place where a name may begin is kept in mind, one
for every open bracket, and the tokens for a name are put there afterwards.
-/
namespace LatexTable.Yaml

/-- A place where the name of a field may begin. -/
structure NameStart where
  /-- How many tokens stand before it. -/
  count : Nat
  offset : Nat
  line : Nat
  col : Nat
  /-- Whether nothing but a name may stand there. -/
  required : Bool
  deriving DecidableEq, Repr

/-- A name ends on its line, and it takes no more than 1024 octets. -/
def NameStart.reaches (n : NameStart) (p : Place) : Bool :=
  n.line = p.line && p.offset ≤ n.offset + 1024

structure Scan where
  place : Place
  /-- The tokens so far, the last one first. -/
  tokens : List Token := []
  count : Nat := 0
  /-- The column behind the one of the innermost block, zero outside all blocks. -/
  floor : Nat := 0
  /-- The floors of the blocks around it. -/
  floors : List Nat := []
  /-- Whether an entry of a list or the name of a field may begin here. -/
  start : Bool := true
  nameStart : Option NameStart := none
  /-- The places of names outside the innermost bracket, one for every bracket. -/
  outer : List (Option NameStart) := []
  deriving DecidableEq, Repr

namespace Scan

/-- Whether the place is inside brackets. -/
def flow (s : Scan) : Bool := !s.outer.isEmpty

def push (t : Token) (s : Scan) : Scan :=
  { s with tokens := t :: s.tokens, count := s.count + 1 }

/-- Puts a token behind the first `count` ones. -/
def insert (count : Nat) (t : Token) (s : Scan) : Scan :=
  let behind := s.count - count
  { s with
    tokens := s.tokens.take behind ++ t :: s.tokens.drop behind
    count := s.count + 1 }

/-- Closes the blocks whose floor is above a limit. -/
def closeBlocks (limit : Nat) : List Nat → Scan → Scan
  | [], s => s
  | floor :: floors, s =>
    if limit < s.floor then
      closeBlocks limit floors { s.push .blockEnd with floor, floors }
    else s

/-- Between brackets there are no blocks. -/
def close (limit : Nat) (s : Scan) : Scan := if s.flow then s else closeBlocks limit s.floors s

/-- Opens a block at a column, if it lies deeper than the innermost one; its token comes behind the
first `count` ones. -/
def openBlock (col count : Nat) (t : Token) (s : Scan) : Scan :=
  if !s.flow && s.floor ≤ col then
    { s.insert count t with floor := col + 1, floors := s.floor :: s.floors }
  else s

/-- Gives up the place of a name, `none` if only a name may stand there. -/
def dropNameStart (s : Scan) : Option Scan :=
  if s.nameStart.any (·.required) then none else some { s with nameStart := none }

/-- Keeps the place as one where a name may begin. -/
def keepNameStart (s : Scan) : Option Scan :=
  if s.start then do
    let kept : NameStart :=
      { count := s.count, offset := s.place.offset, line := s.place.line, col := s.place.col,
        required := !s.flow && s.floor = s.place.col + 1 }
    let s ← s.dropNameStart
    return { s with nameStart := some kept }
  else some s

/-- A place of a name that the text has passed by. -/
def settled? (p : Place) : Option NameStart → Option (Option NameStart)
  | none => some none
  | some n => if n.reaches p then some (some n) else if n.required then none else some none

/-- Gives up the places of names that can no longer reach their colon. -/
def dropPassed (s : Scan) : Option Scan := do
  let nameStart ← settled? s.place s.nameStart
  let outer ← s.outer.mapM (settled? s.place)
  return { s with nameStart, outer }

/-- Skips white space, line ends and comments. Where an entry or a name may begin, a tab is no white
space, except between brackets. A byte order mark may begin a line. -/
def skipFrom (flow : Bool) : Nat → Bool → Place → Bool × Place
  | 0, start, p => (start, p)
  | fuel + 1, start, p =>
    let p := if p.col = 0 && p.rest.head?.any isByteOrderMark then p.ahead 1 else p
    let q := (p.past fun c => c = ' ' || (c = '\t' && (flow || !start))).skipComment
    if q.rest.head?.any isBreak then skipFrom flow fuel (start || !flow) (q.ahead 1)
    else (start, q)

def skip (fuel : Nat) (s : Scan) : Scan :=
  let (start, place) := skipFrom s.flow fuel s.start s.place
  { s with start, place }

/-- Takes so many characters as a token. -/
def take (n : Nat) (t : Token) (start : Bool) (s : Scan) : Scan :=
  { s.push t with place := s.place.ahead n, start }

/-- Takes a token that has been read up to a place, and that a name may begin with. -/
def takeLeaf (read : Option (Token × Place)) (s : Scan) : Option Scan := do
  let s ← s.keepNameStart
  let (token, place) ← read
  return { s.push token with place, start := false }

/-- A mark between documents closes all blocks. -/
def takeMark (n : Nat) (t : Token) (s : Scan) : Option Scan :=
  (s.close 0).dropNameStart.map (·.take n t false)

def takeDirective (s : Scan) : Option Scan := do
  let s ← (s.close 0).dropNameStart
  let (token, place) ← readDirective (s.place.ahead 1)
  return { s.push token with place, start := false }

def takeOpen (t : Token) (s : Scan) : Option Scan :=
  s.keepNameStart.map fun s =>
    { s.take 1 t true with nameStart := none, outer := s.nameStart :: s.outer }

def takeClose (t : Token) (s : Scan) : Option Scan :=
  s.dropNameStart.map fun s =>
    match s.outer with
    | [] => s.take 1 t false
    | nameStart :: outer => { s.take 1 t false with nameStart, outer }

def takeComma (s : Scan) : Option Scan := s.dropNameStart.map (·.take 1 .comma true)

/-- A dash or question mark, which opens a block at its column. -/
def takeIndicator (block t : Token) (start : Bool) (s : Scan) : Option Scan :=
  if s.flow || s.start then
    (s.openBlock s.place.col s.count block).dropNameStart.map (·.take 1 t start)
  else none

/-- A colon makes what has been read since the place of a name into a name. -/
def takeColon (s : Scan) : Option Scan :=
  match s.nameStart with
  | some n =>
    let s := (s.insert n.count .name).openBlock n.col n.count .recordStart
    some ({ s with nameStart := none }.take 1 .value false)
  | none =>
    if s.flow || s.start then
      some ((s.openBlock s.place.col s.count .recordStart).take 1 .value !s.flow)
    else none

def takeBlockText (fuel : Nat) (literal : Bool) (s : Scan) : Option Scan := do
  let s ← s.dropNameStart
  let (text, place) ← readBlockText fuel literal s.floor (s.place.ahead 1)
  return { s.push (.scalar .block text) with place, start := true }

/-- A text without quotes; behind a line end an entry or a name may begin again. -/
def takePlain (fuel : Nat) (s : Scan) : Option Scan := do
  let s ← s.keepNameStart
  let (text, start, place) ← readPlain fuel s.flow s.floor s.place
  return { s.push (.scalar .plain text) with place, start }

def anchorCount (s : Scan) : Nat :=
  s.tokens.countP fun
    | .anchor _ => true
    | _ => false

/-- Takes the token that begins at the place. -/
def takeNext (fuel : Nat) (s : Scan) : Option Scan :=
  let p := s.place
  let next := p.ahead 1
  if p.col = 0 && p.rest.head? = some '%' then s.takeDirective
  else if p.atMark then
    s.takeMark 3 (if p.rest.head? = some '-' then .documentStart else .documentEnd)
  else
    let atGapNext := atGap (p.rest.drop 1)
    match p.rest with
    | '[' :: _ => s.takeOpen .openList
    | '\x7b' :: _ => s.takeOpen .openRecord
    | ']' :: _ => s.takeClose .closeList
    | '\x7d' :: _ => s.takeClose .closeRecord
    | ',' :: _ => s.takeComma
    | '*' :: _ =>
      s.takeLeaf ((readAnchor next).map fun (name, q) => (.reference name s.anchorCount, q))
    | '&' :: _ => s.takeLeaf ((readAnchor next).map fun (name, q) => (.anchor name, q))
    | '!' :: _ => s.takeLeaf (readTag s.flow next)
    | '\'' :: _ =>
      s.takeLeaf ((readSingle fuel [] next).map fun (text, q) => (.scalar .quoted text, q))
    | '"' :: _ =>
      s.takeLeaf ((readDouble fuel [] next).map fun (text, q) => (.scalar .quoted text, q))
    | c :: _ =>
      if c = '-' && atGapNext then s.takeIndicator .listStart .entry true
      else if c = '?' && (s.flow || atGapNext) then s.takeIndicator .recordStart .name !s.flow
      else if c = ':' && (s.flow || atGapNext) then s.takeColon
      else if c = '|' && !s.flow then s.takeBlockText fuel true
      else if c = '>' && !s.flow then s.takeBlockText fuel false
      else if startsPlain s.flow p.rest then s.takePlain fuel
      else none
    | [] => none

/-- Takes tokens up to the end of the text. -/
def run : Nat → Scan → Option (List Token)
  | 0, _ => none
  | fuel + 1, s => do
    let s ← (s.skip fuel).dropPassed
    if s.place.rest.isEmpty then
      let s ← (s.close 0).dropNameStart
      return s.tokens.reverse
    else
      let s ← (s.close (s.place.col + 1)).takeNext fuel
      run fuel s

end Scan

/-- Every line end but the two separators becomes a newline. -/
def unifyBreaks : List Char → List Char
  | [] => []
  | '\r' :: '\n' :: cs => '\n' :: unifyBreaks cs
  | c :: cs => (if c = '\r' || c.toNat = 0x85 then '\n' else c) :: unifyBreaks cs

/-- The tokens of a text. Every token takes a character, and so does every step inside a token. -/
def tokens? (s : String) : Option (List Token) :=
  let cs := s.toList
  if cs.all isAllowed then Scan.run (2 * cs.length + 2) { place := { rest := unifyBreaks cs } }
  else none

end LatexTable.Yaml
