import CurrencyPad.Exchange.Conversion
import CurrencyPad.Expression.Value
import CurrencyPad.Json.Basic
import CurrencyPad.Money.Format

/-!
# What the pad shows

The display of the pad is a function of the expression, the selected currency,
whether errors are shown, the rates and the base currency. It holds the
expression, its value as an amount, the same amount in the base currency in
short form, and a line with the result of the calculation.
-/

namespace CurrencyPad

/-- The line under the expression with the result of the calculation. -/
structure ResultLine where
  text : Text
  isError : Bool
deriving DecidableEq, Repr

def ResultLine.toJson (line : ResultLine) : Json :=
  .record [("result", .string line.text), ("is_error", .boolean line.isError)]

/-- Everything that the pad shows. -/
structure Display where
  expression : Option Text
  currency : Text
  amount : Option Money
  baseAmount : Option ShownMoney
  result : Option ResultLine
deriving BEq

/-- What the display is made of. Rates and base currency may be unknown. -/
structure DisplaySources where
  expression : Text
  currency : Text
  showError : Bool
  rates : Option Snapshot
  base : Option Text

namespace Display

def resultText (config : Config) (value : Option Binary64.Finite) : Text :=
  match value with
  | some x => Number.groupedText config.locale config.resultDecimals x.value
  | none => "Error".toList

/-- The result line. An error shows only once it was asked for. No line is shown
without an error where the expression is blank or is itself the result. -/
def resultLine (config : Config) (expression : Text)
    (value : Option Binary64.Finite) (showError : Bool) : Option ResultLine :=
  let isError := value.isNone && showError
  let obvious :=
    Expression.isObvious config.locale expression (value.map (·.value))
  if !isError && (Text.isBlankText expression || obvious) then none
  else some ⟨resultText config value, isError⟩

/-- The amount in the base currency, if that is another one and the rates
convert to it. -/
def inBaseCurrency (config : Config) (amount : Money) (rates : Option Snapshot)
    (base : Option Text) : Option ShownMoney := do
  let base ← base
  let rates ← rates
  if base.isEmpty then none
  else
    let code := Currency.normalize base
    if amount.currency = code then none
    else
      let converted ← rates.convert? amount.currency code amount.amount.value
      some (Money.format config true (Money.of converted code))

def derive (config : Config) (sources : DisplaySources) : Display :=
  let value := Expression.value? config.locale sources.expression
  let amount := value.map fun x => Money.of x sources.currency
  { expression :=
      if sources.expression.isEmpty then none else some sources.expression
    currency := sources.currency
    amount
    baseAmount := amount.bind fun money =>
      inBaseCurrency config money sources.rates sources.base
    result := resultLine config sources.expression value sources.showError }

def toJson (display : Display) : Json :=
  .record
    [ ("expression", Json.optionalText display.expression),
      ("currency", .string display.currency),
      ("amount", display.amount.elim .null Money.toJson),
      ("amount_base_currency", display.baseAmount.elim .null ShownMoney.toJson),
      ("calculator_result", display.result.elim .null ResultLine.toJson) ]

end Display

end CurrencyPad
