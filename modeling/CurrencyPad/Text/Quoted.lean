import CurrencyPad.Text.Printable

/-!
# Quoted texts

The form in which messages quote a text. Single quotes surround it, or double
quotes where the text holds a single quote and no double one. The quote in use
and the backslash are written after a backslash, and a character that is not
printable as an escape with its code point.
-/

namespace CurrencyPad.Text

def hexDigit (n : Nat) : Char :=
  if n < 10 then Char.ofNat (0x30 + n) else Char.ofNat (0x57 + n)

def hexDigits : Nat → Nat → Text
  | 0, _ => []
  | width + 1, n => hexDigits width (n / 16) ++ [hexDigit (n % 16)]

/-- A character that is not printable, as the shortest escape that holds its
code point. -/
def codePointEscape (c : Char) : Text :=
  let code := c.toNat
  if code < 0x100 then '\\' :: 'x' :: hexDigits 2 code
  else if code < 0x10000 then '\\' :: 'u' :: hexDigits 4 code
  else '\\' :: 'U' :: hexDigits 8 code

def quotedChar (quote c : Char) : Text :=
  if c = quote ∨ c = '\\' then ['\\', c]
  else if c = '\n' then ['\\', 'n']
  else if c = '\r' then ['\\', 'r']
  else if c = '\t' then ['\\', 't']
  else if isPrintable c then [c]
  else codePointEscape c

def quoteFor (text : Text) : Char :=
  if '\x27' ∈ text ∧ '\x22' ∉ text then '\x22' else '\x27'

def quoted (text : Text) : Text :=
  let quote := quoteFor text
  quote :: text.flatMap (quotedChar quote) ++ [quote]

def quotedPoint (quote : Char) (point : Nat) : Text :=
  if isHalf point then '\\' :: 'u' :: hexDigits 4 point
  else quotedChar quote (Char.ofNat point)

/-- A string with halves of characters in quotes. -/
def quotedPoints (points : List Nat) : Text :=
  let quote := quoteFor ((points.filter (!isHalf ·)).map Char.ofNat)
  quote :: points.flatMap (quotedPoint quote) ++ [quote]

end CurrencyPad.Text
