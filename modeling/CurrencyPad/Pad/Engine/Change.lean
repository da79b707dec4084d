import CurrencyPad.Pad.Engine.Basic

/-!
# Changes by events

What an event changes in the engine. The display hears of every change, but is
computed and published only when all changes of the event are made.
-/

namespace CurrencyPad.Engine

def writeExpression (engine : Engine) (text : Text) : Engine :=
  if engine.expression = text then engine
  else { engine with expression := text }.hear ({ · with expression := text })

def writeCurrency (engine : Engine) (code : Text) : Engine :=
  if engine.currency = code then engine
  else { engine with currency := code }.hear ({ · with currency := code })

def writeShowError (engine : Engine) (shown : Bool) : Engine :=
  if engine.showError = shown then engine
  else { engine with showError := shown }.hear ({ · with showError := shown })

/-- Sets whether the next digit replaces the expression. -/
def setOverride (engine : Engine) (override : Bool) : Engine :=
  { engine with overrideInitial := override }

def edit (engine : Engine) (text : Text) : Engine :=
  (engine.writeExpression text).setOverride false

/-- An amount as it is written into the expression. -/
def amountText (engine : Engine) (amount : Binary64.Finite) (code : Text) :
    Text :=
  Money.fullText engine.config (Money.of amount code)

def errorCode : Expression.ValueError → String
  | .unreadable _ => "expression_parse_error"
  | .divisionByZero => "expression_arithmetic_error"
  | .notFinite => "expression_arithmetic_error"

/-- The result key: the expression becomes its value. Without a value the
expression stays, and the error is shown and logged unless the expression is
blank. -/
def calculate (engine : Engine) : Engine :=
  match Expression.evaluate engine.config.locale engine.expression with
  | .ok value => engine.edit (engine.amountText value engine.currency)
  | .error error =>
    let engine :=
      if Text.isBlankText engine.expression then engine
      else
        (engine.writeShowError true).notice
          (.warning .expressionError error.message.toList
            [("expression", .string engine.expression)] (errorCode error))
    engine.setOverride false

/-- The amount that the pad starts with. It fills the expression unless it is
zero. -/
def fillIn (engine : Engine) (money : Money) : Engine :=
  let engine := engine.writeCurrency money.currency
  if money.amount.value == 0 then engine.setOverride false
  else
    (engine.writeExpression
      (engine.amountText money.amount money.currency)).setOverride true

/-- What an event changes. A choice of currency is none of these changes. -/
def change (engine : Engine) : Event → Engine
  | .backspace =>
    if engine.expression.isEmpty then engine
    else engine.edit (Expression.backspace engine.expression)
  | .separator =>
    engine.edit
      (Expression.appendSeparator engine.expression
        [engine.config.locale.decimal])
  | .operator key => engine.edit (Expression.appendOperator engine.expression key)
  | .digit key =>
    let text := if engine.overrideInitial then [] else engine.expression
    (engine.edit (Expression.appendDigit text key)).writeShowError false
  | .clear => engine.edit Expression.clear
  | .equals => engine.calculate
  | .currency _ => engine
  | .initial none => engine
  | .initial (some money) => engine.fillIn money

/-- Makes the changes of an event and publishes them together. -/
def dispatch (engine : Engine) (event : Event) : Step :=
  (engine.change event).release

/-- Selects a currency, with a new expression if there is one, and publishes
both together. -/
def applyCurrency (engine : Engine) (code : Text) (expression : Option Text) :
    Step :=
  let engine :=
    match expression with
    | some text => engine.writeExpression text
    | none => engine
  ((engine.writeCurrency code).setOverride false).release

end CurrencyPad.Engine
