import LatexTable.Decimal.Binary64
import LatexTable.Document.Toml.Writer
/-! Numbers, dates and times of TOML. -/
namespace LatexTable.Toml
open Decimal Text

/-- Digits in groups between underscores, without the underscores. -/
def groupedDigits? (isDigit : Char → Bool) (cs : List Char) : Option (List Char) :=
  let groups := splitAt '_' cs
  if groups.all fun group => !group.isEmpty && group.all isDigit then some groups.flatten else none

/-- Decimal digits in groups, without zeros in front. -/
def wholeDigits? (cs : List Char) : Option (List Char) :=
  (groupedDigits? isAsciiDigit cs).filter fun digits => digits.length = 1 || digits.head? ≠ some '0'

def isDigitOf (base : Nat) (c : Char) : Bool := isHexDigit c && digitValue c < base

/-- The node of a whole number, which has to fit 64 bits with a sign. -/
def wholeNode? (negative : Bool) (n : Nat) : Option Node :=
  if negative then (if n ≤ maxWhole + 1 then some (if n = 0 then .number 0 else .foreign) else none)
  else if n ≤ maxWhole then some (.number n) else none

def based? (base : Nat) (cs : List Char) : Option Node := do
  let digits ← groupedDigits? (isDigitOf base) cs
  wholeNode? false (digitsValue base digits)

/-- A number with a fraction or an exponent, which has to be finite. -/
def fraction? (cs : List Char) : Option Node := do
  let whole := cs.takeWhile fun c => isAsciiDigit c || c = '_'
  let rest := cs.dropWhile fun c => isAsciiDigit c || c = '_'
  let digits ← wholeDigits? whole
  let (fraction, rest) ←
    match rest with
    | '.' :: more => do
      let places ← groupedDigits? isAsciiDigit (more.takeWhile fun c => isAsciiDigit c || c = '_')
      pure ('.' :: places, more.dropWhile fun c => isAsciiDigit c || c = '_')
    | rest => pure ([], rest)
  let exponent ←
    match rest with
    | [] => if fraction.isEmpty then none else pure []
    | e :: more =>
      if e = 'e' || e = 'E' then do
        let power ← groupedDigits? isAsciiDigit (Binary64.readSign more).2
        pure ('e' :: (if (Binary64.readSign more).1 then '-' :: power else power))
      else none
  match Binary64.read? (String.ofList (digits ++ fraction ++ exponent)) with
  | some (.finite _) => some .foreign
  | _ => none

def number? (cs : List Char) : Option Node :=
  match cs with
  | '0' :: 'x' :: rest => based? 16 rest
  | '0' :: 'o' :: rest => based? 8 rest
  | '0' :: 'b' :: rest => based? 2 rest
  | cs =>
    let (negative, rest) := Binary64.readSign cs
    if rest = ['i', 'n', 'f'] || rest = ['n', 'a', 'n'] then some .foreign
    else
      match wholeDigits? rest with
      | some digits => wholeNode? negative (digitsValue 10 digits)
      | none => fraction? rest

/-- A given number of digits, with their value. -/
def readDigits (n : Nat) (cs : List Char) : Option (Nat × List Char) :=
  let digits := cs.take n
  if digits.length = n && digits.all isAsciiDigit then some (digitsValue 10 digits, cs.drop n)
  else none

def daysInMonth (year month : Nat) : Nat :=
  if month = 2 then
    (if year % 4 = 0 && (year % 100 ≠ 0 || year % 400 = 0) then 29 else 28)
  else if [4, 6, 9, 11].contains month then 30 else 31

def readMark (mark : Char) : List Char → Option (List Char)
  | [] => none
  | c :: cs => if c = mark then some cs else none

def readDate (cs : List Char) : Option (List Char) := do
  let (year, cs) ← readDigits 4 cs
  let cs ← readMark '-' cs
  let (month, cs) ← readDigits 2 cs
  let cs ← readMark '-' cs
  let (day, cs) ← readDigits 2 cs
  if 1 ≤ month && month ≤ 12 && 1 ≤ day && day ≤ daysInMonth year month then some cs else none

def readTime (cs : List Char) : Option (List Char) := do
  let (hour, cs) ← readDigits 2 cs
  let cs ← readMark ':' cs
  let (minute, cs) ← readDigits 2 cs
  let cs ← readMark ':' cs
  let (second, cs) ← readDigits 2 cs
  if hour ≤ 23 && minute ≤ 59 && second ≤ 60 then
    match cs with
    | '.' :: c :: more => if isAsciiDigit c then some (more.dropWhile isAsciiDigit) else none
    | cs => some cs
  else none

/-- The offset of a time, when there is one; nothing may follow. -/
def isOffset (cs : List Char) : Bool :=
  match cs with
  | [] => true
  | [c] => c = 'Z' || c = 'z'
  | sign :: cs =>
    (sign = '+' || sign = '-') &&
      match readDigits 2 cs with
      | some (hour, ':' :: cs) =>
        match readDigits 2 cs with
        | some (minute, []) => hour ≤ 23 && minute ≤ 59
        | _ => false
      | _ => false

/-- A date, a time, or both. -/
def isMoment (cs : List Char) : Bool :=
  match readDate cs with
  | some [] => true
  | some (c :: rest) =>
    (c = 'T' || c = 't' || c = ' ') && ((readTime rest).map isOffset).getD false
  | none => readTime cs = some []

end LatexTable.Toml
