import CurrencyPad.Binary64.Finite
import CurrencyPad.Decimal.Reading
import CurrencyPad.Expression.Reading

/-!
# The value of an expression

Expressions are evaluated in double precision from left to right as their
structure says. A division by zero is found where it stands, whatever the rest
of the expression gives. The value is finite and never a negative zero.
-/

namespace CurrencyPad.Expression

inductive ValueError where
  | unreadable (error : ReadingError)
  | divisionByZero
  | notFinite
deriving DecidableEq, Repr

namespace ValueError

def message : ValueError → String
  | .unreadable error => error.message
  | .divisionByZero => "Arithmetic error: division by zero"
  | .notFinite => "Arithmetic error: result is not a finite number"

end ValueError

def numeralDecimal (numeral : Text) : Decimal :=
  let whole := numeral.takeWhile Text.isAsciiDigit
  let fraction := (numeral.dropWhile Text.isAsciiDigit).drop 1
  ⟨false, Decimal.digitsValue (whole ++ fraction), -(fraction.length : Int)⟩

def numeralValue (numeral : Text) : Float :=
  Binary64.ofDecimal (numeralDecimal numeral)

namespace Tree

/-- The value of a tree, which may be infinite or no number; none if it divides
by zero. -/
def value? : Tree → Option Float
  | .operand numeral => some (numeralValue numeral)
  | .negate inner => do
    let x ← inner.value?
    return -x
  | .binary operator left right => do
    let x ← left.value?
    let y ← right.value?
    match operator with
    | .plus => some (x + y)
    | .minus => some (x - y)
    | .times => some (x * y)
    | .divide => if y == 0 then none else some (x / y)

def isBareNumber : Tree → Bool
  | .operand _ => true
  | .negate (.operand _) => true
  | _ => false

end Tree

def evaluate (locale : Locale) (text : Text) :
    Except ValueError Binary64.Finite :=
  match read locale text with
  | .error error => .error (.unreadable error)
  | .ok tree =>
    match tree.value? with
    | none => .error .divisionByZero
    | some x =>
      match Binary64.Finite.ofFloat? x with
      | none => .error .notFinite
      | some x => .ok x.withoutNegativeZero

def value? (locale : Locale) (text : Text) : Option Binary64.Finite :=
  (evaluate locale text).toOption

/-- Whether an expression is just a number with the given value, so that there
is nothing to show as its result. -/
def isObvious (locale : Locale) (text : Text) (value : Option Float) : Bool :=
  match value, read locale text with
  | some value, .ok tree => tree.isBareNumber && tree.value?.any (· == value)
  | _, _ => false

end CurrencyPad.Expression
