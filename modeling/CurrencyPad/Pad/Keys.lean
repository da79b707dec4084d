import CurrencyPad.Pad.Event
import CurrencyPad.Text.Blank

/-!
# Keys

A whole session on the pad can be written as texts. A text that starts with `@`
chooses a currency. Every other one is a row of keys: digits, a point or comma,
operators, `=`, `C` to clear and `<` for backspace. Blanks among them mean
nothing.
-/

namespace CurrencyPad.Keys

structure UnknownKey where
  key : Char
deriving DecidableEq, Repr

def UnknownKey.message (error : UnknownKey) : String :=
  "Invalid value for KEYS: Unknown key " ++
    String.ofList (Text.quoted [error.key])

/-- The events of one key; a blank has none. -/
def ofChar (c : Char) : Except UnknownKey (List Event) :=
  if isDigit : Text.isDigit c = true then .ok [.digit ⟨c, isDigit⟩]
  else if c = '.' ∨ c = ',' then .ok [.separator]
  else
    match Operator.ofChar? c with
    | some key => .ok [.operator key]
    | none =>
      if c = '=' then .ok [.equals]
      else if c = 'C' ∨ c = 'c' then .ok [.clear]
      else if c = '<' then .ok [.backspace]
      else if Text.isBlank c then .ok []
      else .error ⟨c⟩

def ofRow : Text → Except UnknownKey (List Event)
  | [] => .ok []
  | c :: rest => do
    let first ← ofChar c
    let others ← ofRow rest
    return first ++ others

def ofText (text : Text) : Except UnknownKey (List Event) :=
  match text with
  | '@' :: code => .ok [.chooseCurrency code]
  | row => ofRow row

def ofTexts : List Text → Except UnknownKey (List Event)
  | [] => .ok []
  | text :: rest => do
    let first ← ofText text
    let others ← ofTexts rest
    return first ++ others

end CurrencyPad.Keys
