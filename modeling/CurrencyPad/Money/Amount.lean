import CurrencyPad.Binary64.Finite
import CurrencyPad.Json.Basic
import CurrencyPad.Money.Currency

/-!
# Amounts of money

A finite amount in one currency, and the texts under which it is shown.
-/

namespace CurrencyPad

/-- An amount in a currency whose code is in normal form. -/
structure Money where
  amount : Binary64.Finite
  currency : Text
deriving BEq

structure ShownMoney where
  amount : Text
  currency : Text
deriving DecidableEq, Repr

namespace Money

def of (amount : Binary64.Finite) (code : Text) : Money :=
  ⟨amount, Currency.normalize code⟩

def toJson (money : Money) : Json :=
  .record [("amount", .real money.amount.value),
    ("currency", .string money.currency)]

end Money

namespace ShownMoney

/-- The amount and, if there is one, the currency after a blank. -/
def display (shown : ShownMoney) : Text :=
  if shown.currency.isEmpty then shown.amount
  else shown.amount ++ ' ' :: shown.currency

def toJson (shown : ShownMoney) : Json :=
  .record [("amount", .string shown.amount), ("currency", .string shown.currency)]

end ShownMoney

end CurrencyPad
