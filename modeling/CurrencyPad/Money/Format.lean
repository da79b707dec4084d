import CurrencyPad.Config.Basic
import CurrencyPad.Money.Amount
import CurrencyPad.Number.Rounded

/-!
# Showing amounts

An amount is rounded to the places of its currency. In full it is a plain number
that can be edited again. In short form large fiat amounts are abbreviated with
the letter of a unit, and all others are grouped.
-/

namespace CurrencyPad

/-- A unit in which large amounts are counted, and the letter that stands for
it. -/
structure AmountUnit where
  scale : Nat
  letter : Char
deriving DecidableEq, Repr

namespace AmountUnit

/-- The units, the largest first. -/
def all : List AmountUnit :=
  [⟨1000000000000, 't'⟩, ⟨1000000000, 'b'⟩, ⟨1000000, 'm'⟩, ⟨1000, 'k'⟩]

/-- The unit whose small or capital letter a character is. The Kelvin sign is a
capital K. -/
def ofLetter? (c : Char) : Option AmountUnit :=
  let letter := if c = '\u212A' then 'k' else c.toLower
  all.find? (·.letter == letter)

end AmountUnit

namespace Money

def shortPlaces : Nat := 2

/-- Whether a decimal is at least as far from zero as a whole number. -/
def reaches (limit : Nat) : ExtendedDecimal → Bool
  | .finite d =>
    if 0 ≤ d.exponent then limit ≤ d.coefficient * Nat.pow 10 d.exponent.toNat
    else limit * Nat.pow 10 (-d.exponent).toNat ≤ d.coefficient
  | .infinite _ => true
  | .undefined => false

def inUnit (x : Float) (unit : AmountUnit) : ExtendedDecimal :=
  Number.roundExtended (x / Float.ofNat unit.scale) shortPlaces

/-- The unit in which an amount is shown: the largest one that it reaches, or
the next larger one, if there is one, where the amount would be shown as a
thousand or more. -/
def chooseUnit? (x : Float) (larger : Option AmountUnit) :
    List AmountUnit → Option AmountUnit
  | [] => none
  | unit :: smaller =>
    if Float.ofNat unit.scale ≤ x.abs then
      if reaches 1000 (inUnit x unit) then some (larger.getD unit) else some unit
    else chooseUnit? x (some unit) smaller

def shortText (locale : Locale) (x : Float) : Text :=
  match chooseUnit? x none AmountUnit.all with
  | some unit =>
    Number.plainExtended locale false (inUnit x unit) ++ [unit.letter]
  | none => Number.plainExtended locale false (Number.roundExtended x shortPlaces)

def decimals (config : Config) (code : Text) : Nat :=
  if Currency.isFiat code then config.fiatDecimals else config.cryptoDecimals

/-- An amount in full, as it is written back into an expression. -/
def fullText (config : Config) (money : Money) : Text :=
  Number.plainExtended config.locale false
    (Number.roundExtended money.amount.value (decimals config money.currency))

def isAbbreviated (config : Config) (money : Money) : Bool :=
  Currency.isFiat money.currency &&
    config.shortenThreshold ≤ money.amount.value.abs

def compactText (config : Config) (money : Money) : Text :=
  if isAbbreviated config money then shortText config.locale money.amount.value
  else
    Number.groupedText config.locale (decimals config money.currency)
      money.amount.value

def format (config : Config) (short : Bool) (money : Money) : ShownMoney :=
  ⟨if short then compactText config money else fullText config money,
    money.currency⟩

end Money

end CurrencyPad
