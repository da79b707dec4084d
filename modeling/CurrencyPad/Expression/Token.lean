import CurrencyPad.Expression.Operator
import CurrencyPad.Text.Digit

/-!
# Tokens

A normal expression consists of numerals and operators. A numeral has digits
before an optional point and any digits after it, or a point and at least one
digit after it. At every place the longest numeral is taken.
-/

namespace CurrencyPad.Expression

inductive Token where
  | numeral (digits : Text)
  | operator (sign : Operator)
deriving DecidableEq, Repr

namespace Token

def text : Token → Text
  | .numeral digits => digits
  | .operator sign => [sign.canonical]

def kindName : Token → String
  | .numeral _ => "NUMBER"
  | .operator .plus => "PLUS"
  | .operator .minus => "MINUS"
  | .operator .times => "STAR"
  | .operator .divide => "SLASH"

/-- The longest numeral at the start of a text. -/
def leadingNumeral? (text : Text) : Option Text :=
  let whole := text.takeWhile Text.isAsciiDigit
  match text.dropWhile Text.isAsciiDigit with
  | '.' :: rest =>
    let fraction := rest.takeWhile Text.isAsciiDigit
    if whole.isEmpty && fraction.isEmpty then none
    else some (whole ++ '.' :: fraction)
  | _ => if whole.isEmpty then none else some whole

/-- The operator that a character of a normal expression stands for. -/
def operatorOf? (c : Char) : Option Operator :=
  if c = '+' then some .plus
  else if c = '-' then some .minus
  else if c = '*' then some .times
  else if c = '/' then some .divide
  else none

def leading? (text : Text) : Option Token :=
  match leadingNumeral? text with
  | some digits => some (.numeral digits)
  | none => (text.head?.bind operatorOf?).map .operator

end Token

/-- What stands at a place of a normal expression; places are counted from 1. -/
inductive Lexeme where
  | token (token : Token) (position : Nat)
  | stray (c : Char) (position : Nat)
deriving DecidableEq, Repr

/-- The tokens of a text up to the first character that starts none. The first
number counts the characters before the text, the second those at its start that
belong to the token before. -/
def scanFrom : Nat → Nat → Text → List Lexeme
  | _, _, [] => []
  | before, inside + 1, _ :: rest => scanFrom (before + 1) inside rest
  | before, 0, c :: rest =>
    match Token.leading? (c :: rest) with
    | some token =>
      .token token (before + 1) ::
        scanFrom (before + 1) (token.text.length - 1) rest
    | none => [.stray c (before + 1)]

def scan (text : Text) : List Lexeme :=
  scanFrom 0 0 text

end CurrencyPad.Expression
