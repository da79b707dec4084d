import CurrencyPad.Binary64.Nearest

/-!
# The shortest decimal of a double

Among the decimals that read back as a double, the one with the fewest digits
and, of those, the one nearest to the double. The search runs over the digit
counts in ascending order. For each it looks at the two decimals of that many
digits that enclose the double, the nearer one first. If it found none, the
exact value would be used, which always reads back.
-/

namespace CurrencyPad.Binary64

/-- The finite double `± significand * 2 ^ exponent`. -/
structure Parts where
  negative : Bool
  significand : Nat
  exponent : Int
deriving DecidableEq, Repr

def parts? (x : Float) : Option Parts :=
  let bits := x.toBits.toNat
  let biased := bits / Nat.pow 2 fractionBits % 0x800
  let fraction := bits % Nat.pow 2 fractionBits
  if biased = 0x7FF then none
  else
    some
      { negative := signBit ≤ bits
        significand :=
          if biased = 0 then fraction else fraction + Nat.pow 2 fractionBits
        exponent := max (biased : Int) 1 - 1 + leastExponent }

def Parts.ratio (parts : Parts) : Nat × Nat :=
  if 0 ≤ parts.exponent then
    (parts.significand * Nat.pow 2 parts.exponent.toNat, 1)
  else (parts.significand, Nat.pow 2 (-parts.exponent).toNat)

/-- The value as a decimal that stands for it exactly. -/
def Parts.exactDecimal (parts : Parts) : Decimal :=
  if 0 ≤ parts.exponent then
    ⟨parts.negative, parts.significand * Nat.pow 2 parts.exponent.toNat, 0⟩
  else
    ⟨parts.negative, parts.significand * Nat.pow 5 (-parts.exponent).toNat,
      parts.exponent⟩

/-- The greatest power of ten, given by its exponent, that is not above a
positive ratio. -/
def log10Ratio (numerator denominator : Nat) : Int :=
  if denominator ≤ numerator then
    (Decimal.digitCount (numerator / denominator) : Int) - 1
  else -(Decimal.digitCount ((denominator + numerator - 1) / numerator - 1) : Int)

/-- The decimals of one exponent next to a positive ratio, the nearer one first;
of two equally near the even one comes first. -/
def neighbours (negative : Bool) (numerator denominator : Nat)
    (exponent : Int) : List Decimal :=
  let (n, d) :=
    if 0 ≤ exponent then (numerator, denominator * Nat.pow 10 exponent.toNat)
    else (numerator * Nat.pow 10 (-exponent).toNat, denominator)
  let below : Decimal := ⟨negative, n / d, exponent⟩
  let above : Decimal := ⟨negative, n / d + 1, exponent⟩
  if Decimal.divideHalfEven n d = n / d then [below, above] else [above, below]

/-- The number of digits that tells any two doubles apart. -/
def sufficientDigits : Nat := 17

def readsBack (x : Float) (d : Decimal) : Bool :=
  (ofDecimal d).toBits == x.toBits

/-- The shortest decimal of a double other than zero that is given with its
parts. -/
def shortestOfParts (x : Float) (parts : Parts) : Decimal :=
  let (numerator, denominator) := parts.ratio
  let top := log10Ratio numerator denominator
  let found := (List.range sufficientDigits).findSome? fun (count : Nat) =>
    (neighbours parts.negative numerator denominator (top - count)).find?
      (readsBack x)
  (found.getD parts.exactDecimal).reduced

/-- The shortest decimal of a double. Zero keeps its sign. -/
def toDecimal (x : Float) : ExtendedDecimal :=
  match parts? x with
  | none => if x.isNaN then .undefined else .infinite (x < 0)
  | some parts =>
    .finite
      (if parts.significand = 0 then ⟨parts.negative, 0, 0⟩
        else shortestOfParts x parts)

end CurrencyPad.Binary64
