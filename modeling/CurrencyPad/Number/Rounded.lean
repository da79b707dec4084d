import CurrencyPad.Binary64.Text
import CurrencyPad.Number.Plain

/-!
# Rounded doubles

Doubles are rounded to places by their shortest decimals, so that a half is what
the digits show and not what the bits hold. Infinite doubles cannot be rounded,
and no double can be rounded to places that are too far from the point.
-/

namespace CurrencyPad.Number

/-- A double that cannot be written as a number. -/
structure Infinite where
  value : Float

def Infinite.message (error : Infinite) : String :=
  "Cannot format non-finite number: " ++ String.ofList (Binary64.text error.value)

/-- A double rounded to places; what is no finite number stays as it is. -/
def roundExtended (x : Float) (places : Int) : ExtendedDecimal :=
  match Binary64.toDecimal x with
  | .finite d => .finite (d.rounded places)
  | other => other

/-- The greatest number of places before or after the point to which doubles can
be rounded. -/
def placesReach : Nat := 2000054

def round (x : Float) (places : Int) : Except Infinite ExtendedDecimal :=
  if placesReach < places.natAbs then .error ⟨x⟩
  else
    match roundExtended x places with
    | .infinite _ => .error ⟨x⟩
    | result => .ok result

/-- A double rounded to places in plain notation with its digits grouped. -/
def groupedText (locale : Locale) (places : Int) (x : Float) : Text :=
  plainExtended locale true (roundExtended x places)

/-- The most places that a result shows unless it is said otherwise. -/
def resultPlaces : Nat := 12

/-- A double as the text of a result: grouped, with at most the given number of
places. -/
def resultText (locale : Locale) (places : Int) (x : Float) :
    Except Infinite Text :=
  (round x places).map (plainExtended locale true)

end CurrencyPad.Number
