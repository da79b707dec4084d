import CurrencyPad.Number.Locale

/-!
# Configuration

The settings of the pad: separators, the number of decimal places for each kind
of currency, the amount from which fiat amounts are abbreviated, and where
events are logged.
-/

namespace CurrencyPad

structure Config where
  locale : Locale
  /-- Fiat amounts from this one on may be abbreviated. -/
  shortenThreshold : Float
  fiatDecimals : Nat
  cryptoDecimals : Nat
  /-- The most places that the result of a calculation shows. -/
  resultDecimals : Nat
  /-- The directory of the event log; without one nothing is logged. -/
  logDirectory : Option Text
  /-- Whether every logged event is forced to the disk. -/
  logSync : Bool
  thresholdPositive : 0 < shortenThreshold
  fiatDecimalsBound : fiatDecimals ≤ 12
  cryptoDecimalsBound : cryptoDecimals ≤ 18
  resultDecimalsBound : resultDecimals ≤ 18

namespace Config

/-- The settings that hold where nothing else is said. -/
def default : Config where
  locale := .default
  shortenThreshold := 10000
  fiatDecimals := 2
  cryptoDecimals := 9
  resultDecimals := 12
  logDirectory := none
  logSync := false
  thresholdPositive := by decide
  fiatDecimalsBound := by decide
  cryptoDecimalsBound := by decide
  resultDecimalsBound := by decide

end Config

end CurrencyPad
