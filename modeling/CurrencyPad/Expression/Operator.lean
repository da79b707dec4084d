import CurrencyPad.Text.Quoted

/-!
# Calculator operators

The four operators. Each has the glyph that the pad shows and the character that
stands for it in a normal expression. On input some other spellings are accepted
too.
-/

namespace CurrencyPad

inductive Operator where
  | plus
  | minus
  | times
  | divide
deriving DecidableEq, Repr

namespace Operator

def glyph : Operator → Char
  | .plus => '+'
  | .minus => '-'
  | .times => '×'
  | .divide => '÷'

/-- The character that stands for the operator in a normal expression. -/
def canonical : Operator → Char
  | .plus => '+'
  | .minus => '-'
  | .times => '*'
  | .divide => '/'

/-- The operator that a character spells: a glyph, an asterisk, a slash or the
minus sign U+2212. -/
def ofChar? (c : Char) : Option Operator :=
  if c = '+' then some .plus
  else if c = '-' ∨ c = '\u2212' then some .minus
  else if c = '×' ∨ c = '*' then some .times
  else if c = '÷' ∨ c = '/' then some .divide
  else none

def isSpelling (c : Char) : Bool :=
  (ofChar? c).isSome

structure UnknownOperator where
  spelling : Text
deriving DecidableEq, Repr

def UnknownOperator.message (error : UnknownOperator) : String :=
  "Unknown calculator operator: " ++ String.ofList (Text.quoted error.spelling)

def ofText (text : Text) : Except UnknownOperator Operator :=
  match text with
  | [c] =>
    match ofChar? c with
    | some operator => .ok operator
    | none => .error ⟨text⟩
  | _ => .error ⟨text⟩

end Operator

end CurrencyPad
