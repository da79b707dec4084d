import CurrencyPad.Exchange.Conversion
import CurrencyPad.Expression.Value
import CurrencyPad.Money.Format
import CurrencyPad.Pad.Event

/-!
# Entries

An entry is what the user of the pad has entered.  The table below says what
every event makes of it.  It knows of no signals, tasks or displays, and rates
are known to it at once.
-/

namespace CurrencyPad

/-- What the user has entered. -/
structure Entry where
  expression : Text
  currency : Text
  showError : Bool
  /-- Whether the next digit replaces the expression. -/
  overrideInitial : Bool
deriving DecidableEq, Repr

namespace Entry

def blank : Entry :=
  ⟨[], [], false, false⟩

def typed (entry : Entry) (text : Text) : Entry :=
  { entry with expression := text, overrideInitial := false }

/-- The result key.  Without a result the expression stays, and the error
shows unless there is nothing to calculate. -/
def calculated (config : Config) (entry : Entry) : Entry :=
  match Expression.value? config.locale entry.expression with
  | some value =>
      entry.typed (Money.fullText config (Money.of value entry.currency))
  | none =>
      { entry with
        showError :=
          entry.showError || !Text.isBlankText entry.expression
        overrideInitial := false }

/-- The pad starts with an amount.  An amount of zero fills in its currency
only. -/
def filledIn (config : Config) (entry : Entry) (money : Money) : Entry :=
  if money.amount.value == 0 then
    { entry with currency := money.currency, overrideInitial := false }
  else
    { entry with
      expression :=
        Money.fullText config (Money.of money.amount money.currency)
      currency := money.currency
      overrideInitial := true }

/-- What an event makes of an entry.  A choice of currency is no such event. -/
def apply (config : Config) (entry : Entry) : Event → Entry
  | .backspace =>
      if entry.expression = [] then entry
      else entry.typed (Expression.backspace entry.expression)
  | .separator =>
      entry.typed
        (Expression.appendSeparator entry.expression
          [config.locale.decimal])
  | .operator key =>
      entry.typed (Expression.appendOperator entry.expression key)
  | .digit key =>
      { entry.typed
          (Expression.appendDigit
            (if entry.overrideInitial then [] else entry.expression)
            key) with
        showError := false }
  | .clear => entry.typed []
  | .equals => entry.calculated config
  | .currency _ => entry
  | .initial none => entry
  | .initial (some money) => entry.filledIn config money

/-- A currency is selected, with a new expression if there is one. -/
def select (entry : Entry) (code : Text) (text : Option Text) : Entry :=
  { entry with
    expression := text.getD entry.expression
    currency := code
    overrideInitial := false }

/-- The amount to convert where another currency is chosen; none if it is
the one selected or nothing can be calculated. -/
def amountFor? (config : Config) (entry : Entry) (code : Text) :
    Option Binary64.Finite :=
  if code = entry.currency then none
  else Expression.value? config.locale entry.expression

/-- An amount converted with some rates, as it is written into the
expression; none if the rates do not convert it. -/
def convertedText? (config : Config) (rates : Snapshot)
    (source target : Text) (amount : Binary64.Finite) : Option Text :=
  (rates.convert? source target amount.value).map fun converted =>
    Money.fullText config (Money.of converted target)

/-- What any event makes of an entry where rates are known. -/
def step (config : Config) (rates : Snapshot) (entry : Entry) :
    Event → Entry
  | .currency code =>
      entry.select code
        ((entry.amountFor? config code).bind
          (convertedText? config rates entry.currency code))
  | event => entry.apply config event

end Entry

end CurrencyPad
