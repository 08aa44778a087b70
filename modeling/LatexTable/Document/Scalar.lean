import LatexTable.Decimal.Binary64
import LatexTable.Document.Node
import LatexTable.Error
/-! What a scalar without quotes stands for, when the field that reads it does not say. -/
namespace LatexTable.Scalar
open Decimal Text

def isNullWord (s : String) : Bool := ["null", "Null", "NULL", "~"].contains s

def flag? (s : String) : Option Bool :=
  if ["true", "True", "TRUE"].contains s then some true
  else if ["false", "False", "FALSE"].contains s then some false
  else none

/-- Digits after a leading zero make a text, not a number. -/
def isZeroPadded (cs : List Char) : Bool :=
  match cs with
  | '0' :: c :: rest => (c :: rest).all isAsciiDigit
  | _ => false

def digitOf (base : Nat) (c : Char) : Bool :=
  isHexDigit c && digitValue c < base

/-- Digits of a base, at least one. -/
def digits? (base : Nat) (cs : List Char) : Option Nat :=
  if cs.isEmpty || !cs.all (digitOf base) then none else some (digitsValue base cs)

/-- A number in base 16, 8 or 2 behind its mark, or in base 10 without padding. -/
def natural? (cs : List Char) : Option Nat :=
  match cs with
  | '0' :: 'x' :: rest => digits? 16 rest
  | '0' :: 'o' :: rest => digits? 8 rest
  | '0' :: 'b' :: rest => digits? 2 rest
  | cs => if isZeroPadded cs then none else digits? 10 cs

def withoutPlus (cs : List Char) : List Char :=
  match cs with
  | '+' :: rest => rest
  | cs => cs

/-- An index or a span. -/
def number? (s : String) : Option Nat :=
  (natural? (withoutPlus s.toList)).filter (· ≤ maxIndex)

/-- Whether the scalar is a whole number of at most 128 bits, with or without a sign. -/
def isInteger (s : String) : Bool :=
  match s.toList with
  | '-' :: rest => (natural? rest).any (· ≤ Nat.pow 2 127)
  | cs => (natural? (withoutPlus cs)).any (· < Nat.pow 2 128)

/-- Whether the scalar is a whole number with a minus sign of at most 64 bits. -/
def isSmallNegative (s : String) : Bool :=
  match s.toList with
  | '-' :: rest => (natural? rest).any (· ≤ Nat.pow 2 63)
  | _ => false

/-- The scalar without its sign. -/
def unsigned (s : String) : List Char := (Binary64.readSign s.toList).2

/-- Whether the scalar is an infinity, no number, or a finite number with or without a fraction. -/
def isFraction (s : String) : Bool :=
  [".inf", ".Inf", ".INF"].contains (String.ofList (withoutPlus s.toList)) ||
    ["-.inf", "-.Inf", "-.INF", ".nan", ".NaN", ".NAN"].contains s ||
      match Binary64.read? s with
      | some (.finite _) => true
      | _ => false

/-- The value of a whole number, `none` if the scalar is none. Only numbers of 64 bits can be
read. -/
def whole? (s : String) : Option Node :=
  match number? s with
  | some n => some (.number n)
  | none =>
    if isSmallNegative s then some .foreign else if isInteger s then some .unreadable else none

/-- The value for which the scalar stands. -/
def resolve (s : String) : Node :=
  if s.isEmpty || isNullWord s then .null
  else
    match flag? s, whole? s with
    | some b, _ => .flag b
    | none, some node => node
    | none, none => if isFraction s && !isZeroPadded (unsigned s) then .foreign else .text s

/-- Whether the scalar, written without quotes, comes back as a text. -/
def isText (s : String) : Bool :=
  (match resolve s with
    | .text _ => true
    | _ => false) && !isZeroPadded (unsigned s)

end LatexTable.Scalar
