import CurrencyPad.Decimal.Basic
import CurrencyPad.Text.Blank

/-!
# Reading decimals

A decimal is written as an optional sign, digits with at most one point, at
least one of them a digit, and an optional power of ten after `e` or `E`.
-/

namespace CurrencyPad.Decimal

/-- The whole number that a row of digits `0` to `9` stands for. -/
def digitsValue (text : Text) : Nat :=
  Nat.ofDigitChars 10 text 0

/-- A sign at the start of a text and what follows it. Without one the number is
positive. -/
def splitSign : Text → Bool × Text
  | '-' :: rest => (true, rest)
  | '+' :: rest => (false, rest)
  | text => (false, text)

/-- A non-empty row of digits, with an optional sign. -/
def integer? (text : Text) : Option Int :=
  let (negative, body) := splitSign text
  if body.isEmpty || !body.all Text.isAsciiDigit then none
  else some (if negative then -(digitsValue body : Int) else digitsValue body)

/-- The places after the point of a number whose whole part is read, and the
rest of the text. -/
def splitFraction : Text → Text × Text
  | '.' :: rest => rest.span Text.isAsciiDigit
  | text => ([], text)

def power? : Text → Option Int
  | [] => some 0
  | c :: rest => if c = 'e' ∨ c = 'E' then integer? rest else none

def ofText? (text : Text) : Option Decimal :=
  let (negative, body) := splitSign text
  let (whole, afterWhole) := body.span Text.isAsciiDigit
  let (fraction, afterFraction) := splitFraction afterWhole
  if whole.isEmpty && fraction.isEmpty then none
  else
    (power? afterFraction).map fun power =>
      ⟨negative, digitsValue (whole ++ fraction), power - fraction.length⟩

/-- Text in which the capital letters of the English alphabet are small ones. -/
def smallLetters (text : Text) : Text :=
  text.map Char.toLower

/-- Reads a decimal, or one of the words for infinity and for no number, in any
mix of case. -/
def readExtended? (text : Text) : Option ExtendedDecimal :=
  let (negative, body) := splitSign text
  let word := smallLetters body
  if word = "inf".toList ∨ word = "infinity".toList then some (.infinite negative)
  else if word = "nan".toList then some .undefined
  else (ofText? text).map .finite

/-- Text with the decimal digits of every script replaced by `0` to `9`. -/
def asciiDigits (text : Text) : Text :=
  text.map fun c =>
    match Text.decimalDigit? c with
    | some value => Char.ofNat (0x30 + value)
    | none => c

/-- Reads a decimal that is written freely: with blanks around it, underscores
in it and digits of any script. -/
def readFree? (text : Text) : Option ExtendedDecimal :=
  readExtended? (asciiDigits ((Text.strip text).filter (· != '_')))

/-- Removes the underscores of a text each of which must stand between two
digits. The first argument tells whether a digit came before. -/
def dropUnderscores? : Bool → Text → Option Text
  | _, [] => some []
  | afterDigit, '_' :: rest =>
    match rest with
    | next :: _ =>
      if afterDigit && Text.isAsciiDigit next then dropUnderscores? false rest
      else none
    | [] => none
  | _, c :: rest => (dropUnderscores? (Text.isAsciiDigit c) rest).map (c :: ·)

end CurrencyPad.Decimal
