import CurrencyPad.Expression.Token
import CurrencyPad.Number.Locale
import CurrencyPad.Text.Blank

/-!
# Reading an expression

An expression is a sum of products of numerals, with an optional minus sign
before the first product. Operators of one rank associate to the left. Reading
goes through the tokens once and stops at the first that cannot follow.

Expressions are typed with the separators of a locale and with any spelling of
the operators. Their normal form has a point before decimal places, one
character for each operator, and neither blanks nor grouping separators.
-/

namespace CurrencyPad.Expression

/-- What a character becomes in the normal form; some disappear. -/
def normalChar (locale : Locale) (c : Char) : Option Char :=
  if Text.isBlank c then none
  else if locale.grouping = some c then none
  else if c = locale.decimal then some '.'
  else
    match Operator.ofChar? c with
    | some operator => some operator.canonical
    | none => some c

def normalize (locale : Locale) (text : Text) : Text :=
  text.filterMap (normalChar locale)

inductive Tree where
  | operand (numeral : Text)
  | negate (inner : Tree)
  | binary (operator : Operator) (left right : Tree)
deriving DecidableEq, Repr

inductive ReadingError where
  /-- There is nothing to read. -/
  | empty
  /-- The text ends, after `length` characters, where an operand is needed. -/
  | incomplete (length : Nat)
  /-- A token stands where it cannot follow. -/
  | unexpectedToken (token : Token) (position : Nat)
  /-- A character starts no token. -/
  | strayCharacter (c : Char) (position : Nat)
deriving DecidableEq, Repr

namespace ReadingError

/-- The place of an error: 0 for an empty text, the length of an incomplete one,
and otherwise the place, counted from 1, of the first token or character that
cannot follow. -/
def position : ReadingError → Nat
  | .empty => 0
  | .incomplete length => length
  | .unexpectedToken _ position => position
  | .strayCharacter _ position => position

def reason : ReadingError → String
  | .empty => "empty expression"
  | .incomplete _ => "incomplete expression"
  | .unexpectedToken token position =>
    "Unexpected token Token('" ++ token.kindName ++ "', " ++
      String.ofList (Text.quoted token.text) ++ ") at line 1, column " ++
        toString position ++ "."
  | .strayCharacter c position =>
    "No terminal matches '" ++ String.ofList [c] ++
      "' in the current parser context, at line 1 col " ++ toString position

def message (error : ReadingError) : String :=
  "Expression parse error: " ++ error.reason ++ " (at position " ++
    toString error.position ++ ")"

end ReadingError

/-- What stands before the product that is being read. -/
inductive Before where
  | nothing
  | sign
  | sum (left : Tree) (operator : Operator)
deriving DecidableEq, Repr

/-- The sum that a product completes. -/
def Before.complete (before : Before) (product : Tree) : Tree :=
  match before with
  | .nothing => product
  | .sign => .negate product
  | .sum left operator => .binary operator left product

/-- The factors of the product that is being read, and the operator after them. -/
def Factors := Option (Tree × Operator)

def Factors.append (factors : Factors) (numeral : Text) : Tree :=
  match factors with
  | none => .operand numeral
  | some (left, operator) => .binary operator left (.operand numeral)

mutual

def readOperand (length : Nat) (before : Before) (factors : Factors) :
    List Lexeme → Except ReadingError Tree
  | [] => .error (.incomplete length)
  | .stray c position :: _ => .error (.strayCharacter c position)
  | .token (.operator operator) position :: _ =>
    .error (.unexpectedToken (.operator operator) position)
  | .token (.numeral numeral) _ :: rest =>
    readOperator length before (factors.append numeral) rest

def readOperator (length : Nat) (before : Before) (product : Tree) :
    List Lexeme → Except ReadingError Tree
  | [] => .ok (before.complete product)
  | .stray c position :: _ => .error (.strayCharacter c position)
  | .token (.numeral numeral) position :: _ =>
    .error (.unexpectedToken (.numeral numeral) position)
  | .token (.operator operator) _ :: rest =>
    if operator = .times ∨ operator = .divide then
      readOperand length before (some (product, operator)) rest
    else readOperand length (.sum (before.complete product) operator) none rest

end

def readNormal (normal : Text) : Except ReadingError Tree :=
  match scan normal with
  | [] => .error .empty
  | .token (.operator .minus) _ :: rest =>
    readOperand normal.length .sign none rest
  | lexemes => readOperand normal.length .nothing none lexemes

def read (locale : Locale) (text : Text) : Except ReadingError Tree :=
  readNormal (normalize locale text)

end CurrencyPad.Expression
