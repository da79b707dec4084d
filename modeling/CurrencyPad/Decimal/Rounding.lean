import CurrencyPad.Decimal.Basic

/-!
# Rounding of decimals

Two rules are in use. Amounts are rounded to a number of places with halves
going away from zero. Products are rounded to a number of significant digits
with halves going to the even neighbour.
-/

namespace CurrencyPad.Decimal

/-- The whole number nearest to a quotient, a half going up. -/
def divideHalfUp (numerator denominator : Nat) : Nat :=
  (2 * numerator + denominator) / (2 * denominator)

/-- The whole number nearest to a quotient, a half going to the even neighbour. -/
def divideHalfEven (numerator denominator : Nat) : Nat :=
  let quotient := numerator / denominator
  let twice := 2 * (numerator % denominator)
  if twice < denominator then quotient
  else if denominator < twice then quotient + 1
  else quotient + quotient % 2

/-- The multiple of `10 ^ (-places)` nearest to a decimal, a half going away
from zero. It keeps its sign even where it is zero. -/
def toPlaces (d : Decimal) (places : Int) : Decimal :=
  let shift := d.exponent + places
  if 0 ≤ shift then ⟨d.negative, d.coefficient * Nat.pow 10 shift.toNat, -places⟩
  else ⟨d.negative, divideHalfUp d.coefficient (Nat.pow 10 (-shift).toNat),
    -places⟩

/-- Rounding to places in which every zero is the plain zero. -/
def rounded (d : Decimal) (places : Int) : Decimal :=
  let result := d.toPlaces places
  if result.isZero then zero else result

/-- The number of significant digits that a product keeps. -/
def productDigits : Nat := 28

/-- The nearest decimal whose coefficient has at most the given number of
digits. -/
def toSignificant (d : Decimal) (count : Nat) : Decimal :=
  let excess := digitCount d.coefficient - count
  if excess = 0 then d
  else
    let coefficient := divideHalfEven d.coefficient (Nat.pow 10 excess)
    if digitCount coefficient ≤ count then
      ⟨d.negative, coefficient, d.exponent + excess⟩
    else ⟨d.negative, coefficient / 10, d.exponent + excess + 1⟩

/-- The product of two decimals rounded to the digits that a product keeps. -/
def multiply (left right : Decimal) : Decimal :=
  toSignificant
    ⟨left.negative != right.negative, left.coefficient * right.coefficient,
      left.exponent + right.exponent⟩
    productDigits

end CurrencyPad.Decimal
