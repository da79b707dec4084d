import CurrencyPad.Decimal.Rounding
import CurrencyPad.Number.Locale

/-!
# Plain number text

Decimals written out in places with the separators of a locale. Zeros at the end
of the places and a separator without places after it are left out. Digits
before the decimal separator may be grouped in threes from the right.
-/

namespace CurrencyPad.Decimal

/-- The digits of a decimal before the point; there is at least one. -/
def wholeText (d : Decimal) : Text :=
  if d.coefficient = 0 then ['0']
  else if 0 ≤ d.exponent then
    digits d.coefficient ++ List.replicate d.exponent.toNat '0'
  else digits (d.coefficient / Nat.pow 10 (-d.exponent).toNat)

/-- The digits of a decimal after the point, as many as its exponent tells. -/
def fractionText (d : Decimal) : Text :=
  if 0 ≤ d.exponent then []
  else
    let places := (-d.exponent).toNat
    let shown := digits (d.coefficient % Nat.pow 10 places)
    List.replicate (places - shown.length) '0' ++ shown

def fixedText (d : Decimal) : Text :=
  let fraction := d.fractionText
  Text.withSign d.negative
    (d.wholeText ++ if fraction.isEmpty then [] else '.' :: fraction)

end CurrencyPad.Decimal

namespace CurrencyPad.Number

/-- Digits in groups of three from the right, with a separator between groups. -/
def groupThousands (separator : Char) : Text → Text
  | [] => []
  | c :: rest =>
    if rest.length ≠ 0 ∧ rest.length % 3 = 0 then
      c :: separator :: groupThousands separator rest
    else c :: groupThousands separator rest

/-- The digits before the decimal separator, grouped if that is asked for and
the locale groups. -/
def wholePart (locale : Locale) (grouped : Bool) (whole : Text) : Text :=
  match grouped, locale.grouping with
  | true, some separator => groupThousands separator whole
  | _, _ => whole

def fractionPart (locale : Locale) (fraction : Text) : Text :=
  let shown := Text.dropTrailing (· == '0') fraction
  if shown.isEmpty then [] else locale.decimal :: shown

def plain (locale : Locale) (grouped : Bool) (d : Decimal) : Text :=
  Text.withSign d.negative
    (wholePart locale grouped d.wholeText ++ fractionPart locale d.fractionText)

def plainExtended (locale : Locale) (grouped : Bool) : ExtendedDecimal → Text
  | .finite d => plain locale grouped d
  | .infinite negative =>
    Text.withSign negative (wholePart locale grouped "Infinity".toList)
  | .undefined => wholePart locale grouped "NaN".toList

end CurrencyPad.Number
