import CurrencyPad.Exchange.Snapshot
import CurrencyPad.Money.Amount

/-!
# Conversion

An amount is converted at the rate between two currencies, else at the inverse
of the opposite rate, else through the pivot of the snapshot, where each of the
two steps may use an inverse. Rates that are missing or cannot be used are never
made up.
-/

namespace CurrencyPad.Snapshot

/-- The factor between two codes in normal form without the pivot: one for the
same code, the rate, or the inverse of the opposite rate. -/
def directFactor? (snapshot : Snapshot) (source target : Text) : Option Float :=
  if source = target then some 1
  else
    match snapshot.quote? source target with
    | some rate => some rate
    | none => (snapshot.quote? target source).map (1 / ·)

/-- The factor between two codes in normal form by way of the pivot. -/
def pivotFactor? (snapshot : Snapshot) (source target : Text) : Option Float := do
  let pivot ← snapshot.pivot
  if pivot = source ∨ pivot = target then none
  else
    let first ← snapshot.directFactor? source pivot
    let second ← snapshot.directFactor? pivot target
    some (first * second)

/-- The factor by which amounts in one currency become amounts in another. -/
def factor? (snapshot : Snapshot) (source target : Text) : Option Float :=
  let source := Currency.normalize source
  let target := Currency.normalize target
  match snapshot.directFactor? source target with
  | some factor => some factor
  | none => snapshot.pivotFactor? source target

/-- An amount in another currency; none if there is no factor or the result is
not finite. -/
def convert? (snapshot : Snapshot) (source target : Text) (amount : Float) :
    Option Binary64.Finite := do
  let factor ← snapshot.factor? source target
  Binary64.Finite.ofFloat? (amount * factor)

structure NoConversion where
  source : Text
  target : Text
deriving DecidableEq, Repr

def NoConversion.message (error : NoConversion) : String :=
  "No exchange rate from " ++ String.ofList error.source ++ " to " ++
    String.ofList error.target

def convert (snapshot : Snapshot) (source target : Text) (amount : Float) :
    Except NoConversion Binary64.Finite :=
  match snapshot.convert? source target amount with
  | some converted => .ok converted
  | none => .error ⟨Currency.normalize source, Currency.normalize target⟩

end CurrencyPad.Snapshot
