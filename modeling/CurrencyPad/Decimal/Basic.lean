import CurrencyPad.Text.Digit

/-!
# Decimal numbers

A decimal number is a signed whole number of units at a power of ten. Several
decimals may have the same value: `12.5` and `12.50` differ in coefficient and
exponent. Zero keeps its sign. Decimals are compared by the numbers that they
stand for, whatever their exponents are.
-/

namespace CurrencyPad

/-- The number `± coefficient * 10 ^ exponent`. -/
structure Decimal where
  negative : Bool
  coefficient : Nat
  exponent : Int
deriving DecidableEq, Repr

/-- A decimal number, or the result of a calculation that has none. -/
inductive ExtendedDecimal where
  | finite (value : Decimal)
  | infinite (negative : Bool)
  | undefined
deriving DecidableEq, Repr

namespace Decimal

/-- Zero without a sign and without places after the point. -/
def zero : Decimal :=
  ⟨false, 0, 0⟩

/-- Whether the value is zero, whatever the sign. -/
def isZero (d : Decimal) : Bool :=
  d.coefficient == 0

/-- The decimal digits of a whole number, most significant first; zero has the
digit `0`. -/
def digits (n : Nat) : Text :=
  Nat.toDigits 10 n

def digitCount (n : Nat) : Nat :=
  (digits n).length

/-- The power of ten at which the first digit of the coefficient stands. -/
def magnitude (d : Decimal) : Int :=
  d.exponent + digitCount d.coefficient - 1

/-- The same value with `count` further zeros in the coefficient. -/
def withZeros (d : Decimal) (count : Nat) : Decimal :=
  ⟨d.negative, d.coefficient * Nat.pow 10 count, d.exponent - count⟩

/-- Removes up to `count` trailing zeros of a coefficient and counts those
removed. -/
def trimZeros : Nat → Nat → Nat × Nat
  | 0, coefficient => (coefficient, 0)
  | count + 1, coefficient =>
    if coefficient % 10 = 0 then
      let (rest, removed) := trimZeros count (coefficient / 10)
      (rest, removed + 1)
    else (coefficient, 0)

/-- The same value with the fewest digits in the coefficient. -/
def reduced (d : Decimal) : Decimal :=
  if d.coefficient = 0 then ⟨d.negative, 0, 0⟩
  else
    let (rest, removed) := trimZeros (digitCount d.coefficient) d.coefficient
    ⟨d.negative, rest, d.exponent + removed⟩

/-- The whole number that a decimal is in units of a power of ten that is not
above its own. -/
def inUnits (d : Decimal) (exponent : Int) : Int :=
  let size : Int := d.coefficient * Nat.pow 10 (d.exponent - exponent).toNat
  if d.negative then -size else size

def le (left right : Decimal) : Bool :=
  let exponent := min left.exponent right.exponent
  left.inUnits exponent ≤ right.inUnits exponent

end Decimal

namespace ExtendedDecimal

/-- Whether a number is at most another one. What is no number compares with
nothing. -/
def le : ExtendedDecimal → ExtendedDecimal → Bool
  | .undefined, _ => false
  | _, .undefined => false
  | .infinite negative, .infinite other => negative || !other
  | .infinite negative, .finite _ => negative
  | .finite _, .infinite negative => !negative
  | .finite left, .finite right => left.le right

def same (left right : ExtendedDecimal) : Bool :=
  left.le right && right.le left

end ExtendedDecimal

end CurrencyPad
