import CurrencyPad.Binary64.Shortest
import CurrencyPad.Decimal.Reading
import CurrencyPad.Text.Blank

/-!
# Doubles as text

A double is printed with the digits of its shortest decimal and always shows a
point or a power of ten, so that it cannot be taken for a whole number. Small
exponents are written out in places, others as a power with a sign and at least
two digits.
-/

namespace CurrencyPad.Binary64

/-- Powers of ten below this one are not written out in places. -/
def leastPositional : Int := -4

/-- Powers of ten from this one on are not written out in places. -/
def positionalLimit : Int := 16

/-- The exponent mark of a number: a sign and at least two digits. -/
def powerText (power : Int) : Text :=
  let digits := Decimal.digits power.natAbs
  'e' :: (if power < 0 then '-' else '+') ::
    (if digits.length < 2 then '0' :: digits else digits)

/-- Digits with a point among them or a power of ten after them; the power is
that of the first digit. -/
def placeDigits (digits : Text) (power : Int) : Text :=
  if power < leastPositional ∨ positionalLimit ≤ power then
    match digits with
    | [] => []
    | [first] => first :: powerText power
    | first :: rest => first :: '.' :: rest ++ powerText power
  else if power < 0 then
    "0.".toList ++ List.replicate (-power - 1).toNat '0' ++ digits
  else
    let whole := power.toNat + 1
    let padded := digits ++ List.replicate (whole + 1 - digits.length) '0'
    padded.take whole ++ '.' :: padded.drop whole

def text (x : Float) : Text :=
  match toDecimal x with
  | .undefined => "nan".toList
  | .infinite negative => Text.withSign negative "inf".toList
  | .finite d =>
    Text.withSign d.negative
      (placeDigits (Decimal.digits d.coefficient) d.magnitude)

/-- Reads a double. White space around it is passed over, digits of every script
count, and an underscore may stand between two digits. -/
def read? (text : Text) : Option Float :=
  let plain := Decimal.asciiDigits (Text.trim text)
  ((Decimal.dropUnderscores? false plain).bind Decimal.readExtended?).map
    ofExtended

end CurrencyPad.Binary64
