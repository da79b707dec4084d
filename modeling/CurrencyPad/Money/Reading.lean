import CurrencyPad.Expression.Reading
import CurrencyPad.Money.Format

/-!
# Reading shown amounts

The text of a shown amount, grouped or abbreviated, is turned back into a plain
number. The digits may be decimal digits of any script.
-/

namespace CurrencyPad.Money

structure NotAnAmount where
  text : Text
deriving DecidableEq, Repr

def NotAnAmount.message (error : NotAnAmount) : String :=
  "Not a formatted amount: " ++ String.ofList (Text.quoted error.text)

/-- The factor that the letter at the end of a text stands for, and the text
before it. -/
def splitUnit (text : Text) : Nat × Text :=
  match text.getLast?.bind AmountUnit.ofLetter? with
  | some unit => (unit.scale, text.dropLast)
  | none => (1, text)

def digitsValue? (text : Text) : Option Nat :=
  text.foldl
    (fun value c => do
      let value ← value
      let digit ← Text.decimalDigit? c
      return 10 * value + digit)
    (some 0)

/-- The decimal of digits with at most one point among them; there is at least
one digit. -/
def unsigned? (negative : Bool) (text : Text) : Option Decimal :=
  let whole := text.takeWhile (· != '.')
  let fraction := (text.dropWhile (· != '.')).drop 1
  if whole.isEmpty && fraction.isEmpty then none
  else
    (digitsValue? (whole ++ fraction)).map fun coefficient =>
      ⟨negative, coefficient, -(fraction.length : Int)⟩

def signed? (text : Text) : Option Decimal :=
  match text with
  | '-' :: body => unsigned? true body
  | body => unsigned? false body

/-- The number that the text of a shown amount stands for. -/
def readAmount (locale : Locale) (text : Text) : Except NotAnAmount Decimal :=
  let (scale, body) := splitUnit (Text.strip text)
  match signed? (Expression.normalize locale body) with
  | none => .error ⟨text⟩
  | some d =>
    let product := d.multiply ⟨false, scale, 0⟩
    .ok (if product.isZero then .zero else product)

/-- The plain text of the number that a shown amount stands for. -/
def plainOfShown (locale : Locale) (text : Text) : Except NotAnAmount Text :=
  (readAmount locale text).map (Number.plain locale false)

end CurrencyPad.Money
