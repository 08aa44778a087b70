/-! Rounding a quotient of natural numbers to the nearest integer, ties to the even one. -/
namespace LatexTable.Decimal

def roundHalfEven (num den : Nat) : Nat :=
  let floor := num / den
  let twice := 2 * (num % den)
  if twice < den then floor
  else if den < twice then floor + 1
  else if floor % 2 = 0 then floor else floor + 1

end LatexTable.Decimal
