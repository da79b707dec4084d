import CurrencyPad.Text.Digit

/-!
# Control sequences

A terminal takes an escape character, an opening bracket, parameters and a
letter for a command. Output that does not go to a terminal goes without such
sequences.
-/

namespace CurrencyPad.Text

/-- A character of the parameters of a control sequence. -/
def isControlParameter (c : Char) : Bool :=
  isAsciiDigit c || c == ';' || c == '?'

/-- What follows the control sequence at the start of a text. -/
def afterControl? (text : Text) : Option Text :=
  match text with
  | '\x1B' :: '[' :: rest =>
    match rest.dropWhile isControlParameter with
    | c :: after => if c.isAlpha then some after else none
    | [] => none
  | _ => none

/-- A text of at most the given length without control sequences. -/
def dropControlsWithin : Nat → Text → Text
  | 0, text => text
  | _ + 1, [] => []
  | size + 1, c :: rest =>
    match afterControl? (c :: rest) with
    | some after => dropControlsWithin size after
    | none => c :: dropControlsWithin size rest

def dropControls (text : Text) : Text :=
  dropControlsWithin text.length text

end CurrencyPad.Text
