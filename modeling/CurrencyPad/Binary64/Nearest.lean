import CurrencyPad.Decimal.Rounding

/-!
# The nearest double

The double-precision number that is nearest to a ratio of whole numbers, a half
going to the even significand. Doubles are laid out so that the bit patterns of
the positive ones ascend with their values; a significand that rounds up to the
next power of two therefore carries into the exponent by mere addition.
-/

namespace CurrencyPad.Binary64

def leastExponent : Int := -1074

/-- The number of significand bits after the first. -/
def fractionBits : Nat := 52

def infinityBits : Nat := 0x7FF0000000000000

def signBit : Nat := 0x8000000000000000

/-- The ratio `numerator / (denominator * 2 ^ exponent)` as a ratio of whole
numbers. -/
def scaleRatio (numerator denominator : Nat) (exponent : Int) : Nat × Nat :=
  if 0 ≤ exponent then (numerator, denominator * Nat.pow 2 exponent.toNat)
  else (numerator * Nat.pow 2 (-exponent).toNat, denominator)

/-- The greatest power of two, given by its exponent, that is not above a
positive ratio. -/
def log2Ratio (numerator denominator : Nat) : Int :=
  let guess : Int := (Nat.log2 numerator : Int) - Nat.log2 denominator
  let (n, d) := scaleRatio numerator denominator guess
  if d ≤ n then guess else guess - 1

/-- The exponent of the unit in which the significand of a positive ratio is
counted. -/
def unitExponent (numerator denominator : Nat) : Int :=
  max leastExponent (log2Ratio numerator denominator - fractionBits)

/-- The bit pattern of the double nearest to a ratio; it may exceed that of
infinity. -/
def nearestBits (numerator denominator : Nat) : Nat :=
  if numerator = 0 then 0
  else
    let exponent := unitExponent numerator denominator
    let (n, d) := scaleRatio numerator denominator exponent
    (exponent - leastExponent).toNat * Nat.pow 2 fractionBits +
      Decimal.divideHalfEven n d

/-- The double with a sign and the bit pattern of its absolute value, at most
infinity. -/
def ofMagnitudeBits (negative : Bool) (bits : Nat) : Float :=
  Float.ofBits (UInt64.ofNat
    ((if negative then signBit else 0) + min bits infinityBits))

def nearest (negative : Bool) (numerator denominator : Nat) : Float :=
  ofMagnitudeBits negative (nearestBits numerator denominator)

def infinity (negative : Bool) : Float :=
  ofMagnitudeBits negative infinityBits

/-- No decimal whose first digit stands at a greater power of ten is finite as a
double. -/
def greatestMagnitude : Int := 309

/-- No decimal whose first digit stands at a lesser power of ten is other than
zero as a double. -/
def leastMagnitude : Int := -325

def ofDecimal (d : Decimal) : Float :=
  if d.coefficient = 0 then ofMagnitudeBits d.negative 0
  else if greatestMagnitude < d.magnitude then infinity d.negative
  else if d.magnitude < leastMagnitude then ofMagnitudeBits d.negative 0
  else if 0 ≤ d.exponent then
    nearest d.negative (d.coefficient * Nat.pow 10 d.exponent.toNat) 1
  else nearest d.negative d.coefficient (Nat.pow 10 (-d.exponent).toNat)

/-- The double nearest to a decimal, infinity, or the double that is no number. -/
def ofExtended : ExtendedDecimal → Float
  | .finite d => ofDecimal d
  | .infinite negative => infinity negative
  | .undefined => 0.0 / 0.0

end CurrencyPad.Binary64
