import CurrencyPad.Text.Digit
import CurrencyPad.Text.Quoted

/-!
# Number locales

The separators with which numbers are written and read: a character before the
decimal places and, if there is one, a character between groups of digits.
-/

namespace CurrencyPad

/-- The characters of a normal expression that no decimal separator may be. -/
def Locale.reserved : List Char :=
  ['+', '-', '*', '/']

/-- The separators of numbers. The two differ, and the decimal separator is
neither a digit nor an operator of a normal expression. -/
structure Locale where
  decimal : Char
  grouping : Option Char
  separatorsDiffer : grouping ≠ some decimal
  decimalIsNoDigit : Text.isDigit decimal = false
  decimalIsNotReserved : decimal ∉ Locale.reserved
deriving DecidableEq, Repr

inductive LocaleError where
  | decimalLength
  | groupingLength
  | sameSeparators
  | invalidDecimal (separator : Char)
deriving DecidableEq, Repr

namespace LocaleError

def message : LocaleError → String
  | .decimalLength => "decimal_separator must be a single character"
  | .groupingLength => "grouping_separator must be at most one character"
  | .sameSeparators => "decimal and grouping separators must differ"
  | .invalidDecimal separator =>
    "Invalid decimal separator: " ++ String.ofList (Text.quoted [separator])

end LocaleError

namespace Locale

/-- A point before the decimal places and a comma between groups. -/
def default : Locale where
  decimal := '.'
  grouping := some ','
  separatorsDiffer := by decide
  decimalIsNoDigit := by decide
  decimalIsNotReserved := by decide

def groupingText (locale : Locale) : Text :=
  locale.grouping.toList

def ofChars (decimal : Char) (grouping : Option Char) :
    Except LocaleError Locale :=
  if different : grouping = some decimal then .error .sameSeparators
  else if allowed : Text.isDigit decimal = false ∧ decimal ∉ reserved then
    .ok ⟨decimal, grouping, different, allowed.1, allowed.2⟩
  else .error (.invalidDecimal decimal)

/-- The locale of two separators that are given as texts; an empty grouping
separator is none. -/
def ofTexts (decimal grouping : Text) : Except LocaleError Locale :=
  match decimal, grouping with
  | [c], [] => ofChars c none
  | [c], [d] => ofChars c (some d)
  | [_], _ => .error .groupingLength
  | _, _ => .error .decimalLength

end Locale

end CurrencyPad
