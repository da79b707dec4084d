import CurrencyPad.Expression.Operator
import CurrencyPad.Text.Digit

/-!
# Typing an expression

The edits that keys make at the end of an expression. They keep the text within
the calculator's grammar while it is typed: an operand has at most one decimal
separator, an operator replaces one that stands before it, and an expression
starts with no operator but a minus sign. Nothing is evaluated.
-/

namespace CurrencyPad

structure Digit where
  char : Char
  isDigit : Text.isDigit char = true
deriving DecidableEq, Repr

structure NotADigit where
  text : Text
deriving DecidableEq, Repr

def NotADigit.message (error : NotADigit) : String :=
  "Not a digit: " ++ String.ofList (Text.quoted error.text)

/-- The digit that a text of one character is. -/
def Digit.ofText (text : Text) : Except NotADigit Digit :=
  match text with
  | [c] => if valid : Text.isDigit c = true then .ok ⟨c, valid⟩ else .error ⟨text⟩
  | _ => .error ⟨text⟩

namespace Expression

/-- The text after the last operator: the number being typed. -/
def currentOperand (text : Text) : Text :=
  (text.reverse.takeWhile fun c => !Operator.isSpelling c).reverse

def appendDigit (text : Text) (digit : Digit) : Text :=
  text ++ [digit.char]

/-- An expression with an operator at its end. It replaces an operator that
stands there, but a lone sign stays as it is, and an empty expression takes a
minus sign only. -/
def appendOperator (text : Text) (operator : Operator) : Text :=
  match text.getLast? with
  | none => if operator = .minus then [Operator.minus.glyph] else []
  | some last =>
    if !Operator.isSpelling last then text ++ [operator.glyph]
    else if text.length = 1 then text
    else text.dropLast ++ [operator.glyph]

def occursIn (part : Text) : Text → Bool
  | [] => part.isEmpty
  | c :: rest => part.isPrefixOf (c :: rest) || occursIn part rest

/-- An expression with a decimal separator at its end, unless the current
operand has one. An empty operand gets a zero first. -/
def appendSeparator (text separator : Text) : Text :=
  let operand := currentOperand text
  if occursIn separator operand then text
  else if operand.isEmpty then text ++ '0' :: separator
  else text ++ separator

def backspace (text : Text) : Text :=
  text.dropLast

def clear : Text := []

end Expression

end CurrencyPad
