import CurrencyPad.Decimal.Reading
import CurrencyPad.Text.Blank

/-!
# Whole numbers in a base

A whole number is written with blanks around it, an optional sign, and digits of
any script, with single underscores between digits. In the bases 2, 8 and 16 a
zero and a letter may stand before the digits. A number in base ten has no more
than 4300 digits.
-/

namespace CurrencyPad.Integer

inductive Fault where
  | malformed
  /-- There are more digits than are read. -/
  | tooManyDigits (count : Nat)
deriving DecidableEq, Repr

/-- The greatest number of digits that are read in base ten. -/
def digitLimit : Nat := 4300

def tooManyDigitsText (count : Nat) : String :=
  "Exceeds the limit (" ++ toString digitLimit ++
    " digits) for integer string conversion: value has " ++ toString count ++
    " digits; use sys.set_int_max_str_digits() to increase the limit"

def digitValue? (c : Char) : Option Nat :=
  if '0' ≤ c ∧ c ≤ '9' then some (c.toNat - 0x30)
  else if 'a' ≤ c ∧ c ≤ 'f' then some (c.toNat - 0x57)
  else if 'A' ≤ c ∧ c ≤ 'F' then some (c.toNat - 0x37)
  else none

def isDigitIn (base : Nat) (c : Char) : Bool :=
  (digitValue? c).any (· < base)

def valueIn (base : Nat) (digits : Text) : Nat :=
  digits.foldl (fun value c => base * value + (digitValue? c).getD 0) 0

def baseLetter? (base : Nat) : Option Char :=
  if base = 2 then some 'b'
  else if base = 8 then some 'o'
  else if base = 16 then some 'x'
  else none

/-- A text without the mark of a base at its start; an underscore may follow the
mark. -/
def dropMark (base : Nat) (text : Text) : Text :=
  match text with
  | '0' :: letter :: rest =>
    if (baseLetter? base).any (· == letter.toLower) then
      match rest with
      | '_' :: digits => digits
      | digits => digits
    else text
  | _ => text

/-- The digits of a row of digits and underscores, no two of which stand
together or at an end. -/
def digitsOf? (row : Text) : Option Text :=
  let parts := Text.splitAt '_' row
  if parts.all (!·.isEmpty) then some parts.flatten else none

def read (base : Nat) (text : Text) : Except Fault Int :=
  let (negative, body) := Decimal.splitSign (Text.trim (Decimal.asciiDigits text))
  let (row, after) :=
    (dropMark base body).span fun c => isDigitIn base c || c == '_'
  match digitsOf? row with
  | none => .error .malformed
  | some digits =>
    if base = 10 ∧ digitLimit < digits.length then
      .error (.tooManyDigits digits.length)
    else if !after.isEmpty then .error .malformed
    else
      let value : Int :=
        if base = 10 then Decimal.digitsValue digits else valueIn base digits
      .ok (if negative then -value else value)

def read? (text : Text) : Option Int :=
  (read 10 text).toOption

end CurrencyPad.Integer
