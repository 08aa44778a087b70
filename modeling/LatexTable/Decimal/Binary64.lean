import LatexTable.Decimal.Rounding
import LatexTable.Text.Letters
/-!
The arithmetic of IEEE 754 binary64 on whole multiples of 2^-1074, the smallest positive number of
the format. Only what shares of a line need: reading a decimal, sum, quotient, three places. The
sign of zero is not kept, since no share can show it.
-/
namespace LatexTable.Decimal
open LatexTable.Text

inductive Binary64 where
  | nan
  | infinity (negative : Bool)
  | finite (units : Int)
  deriving DecidableEq, Repr

namespace Binary64

/-- Units in the number one. -/
def one : Nat := Nat.pow 2 1074

/-- Units at which the format ends. -/
def ceiling : Nat := Nat.pow 2 2098

def ofUnits (negative : Bool) (units : Nat) : Binary64 :=
  if ceiling ≤ units then .infinity negative
  else .finite (if negative then -(units : Int) else units)

/-- The number nearest to `num / den` units. Numbers have 53 significant bits, so a quotient of `k`
bits is rounded to a multiple of `2 ^ (k - 53)`. -/
def nearest (negative : Bool) (num den : Nat) : Binary64 :=
  let step := Nat.pow 2 ((num / den).log2 - 52)
  ofUnits negative (roundHalfEven num (den * step) * step)

def add : Binary64 → Binary64 → Binary64
  | .nan, _ | _, .nan => .nan
  | .infinity s, .infinity t => if s = t then .infinity s else .nan
  | .infinity s, .finite _ | .finite _, .infinity s => .infinity s
  | .finite a, .finite b => nearest (decide (a + b < 0)) (a + b).natAbs 1

def div : Binary64 → Binary64 → Binary64
  | .nan, _ | _, .nan => .nan
  | .infinity _, .infinity _ => .nan
  | .infinity s, .finite b => .infinity (s ^^ decide (b < 0))
  | .finite _, .infinity _ => .finite 0
  | .finite a, .finite b =>
    if b = 0 then (if a = 0 then .nan else .infinity (decide (a < 0)))
    else nearest (decide (a < 0) ^^ decide (b < 0)) (a.natAbs * one) b.natAbs

def isPositive : Binary64 → Bool
  | .nan => false
  | .infinity negative => !negative
  | .finite units => 0 < units

/-- The sum from the left. -/
def sum (values : List Binary64) : Binary64 := values.foldl add (.finite 0)

/-- The number nearest to `mantissa · 10 ^ exponent`, the mantissa having at most `width` digits.
Outside the exponents of the first two cases the power would only be rounded away. -/
def ofDecimal (negative : Bool) (mantissa width : Nat) (exponent : Int) : Binary64 :=
  if mantissa = 0 then .finite 0
  else if 400 < exponent then .infinity negative
  else if exponent < -((width : Int) + 400) then .finite 0
  else
    match exponent with
    | .ofNat e => nearest negative (mantissa * Nat.pow 10 e * one) 1
    | .negSucc e => nearest negative (mantissa * one) (Nat.pow 10 (e + 1))

def readSign : List Char → Bool × List Char
  | '+' :: cs => (false, cs)
  | '-' :: cs => (true, cs)
  | cs => (false, cs)

/-- An optional exponent at the end of a number. -/
def readExponent? : List Char → Option Int
  | [] => some 0
  | c :: cs =>
    if c = 'e' || c = 'E' then
      let (negative, digits) := readSign cs
      if digits.isEmpty || !digits.all isAsciiDigit then none
      else
        let value : Int := digitsValue 10 digits
        some (if negative then -value else value)
    else none

/-- Digits with at most one point among or around them, then an optional exponent. -/
def readNumber? (negative : Bool) (cs : List Char) : Option Binary64 :=
  let whole := cs.takeWhile isAsciiDigit
  let (fraction, rest) :=
    match cs.dropWhile isAsciiDigit with
    | '.' :: more => (more.takeWhile isAsciiDigit, more.dropWhile isAsciiDigit)
    | more => ([], more)
  let digits := whole ++ fraction
  if digits.isEmpty then none
  else
    (readExponent? rest).map fun exponent =>
      ofDecimal negative (digitsValue 10 digits) digits.length (exponent - fraction.length)

/-- Reads a decimal number, or one of the words for an infinity and for no number in any case. -/
def read? (s : String) : Option Binary64 :=
  let (negative, cs) := readSign s.toList
  match String.ofList (cs.map Char.toLower) with
  | "inf" | "infinity" => some (.infinity negative)
  | "nan" => some .nan
  | _ => readNumber? negative cs

/-- Three digits after the point, a tie going to the even digit. -/
def threePlaces : Binary64 → String
  | .nan => "NaN"
  | .infinity negative => if negative then "-inf" else "inf"
  | .finite units =>
    let thousandths := roundHalfEven (units.natAbs * 1000) one
    let fraction := toString (thousandths % 1000)
    (if units < 0 then "-" else "") ++ toString (thousandths / 1000) ++ "." ++
      String.ofList (List.replicate (3 - fraction.length) '0') ++ fraction

/-- Three places less the zeros at the end, and less the point when it then stands last. -/
def shareText (v : Binary64) : String :=
  let digits := dropEndWhile (· = '0') v.threePlaces.toList
  match dropEndWhile (· = '.') digits with
  | [] => "0"
  | cs => String.ofList cs

end Binary64
end LatexTable.Decimal
