import CurrencyPad.Text.Integer
import CurrencyPad.Yaml.Token

/-!
# Scalars in quotes

A scalar in quotes may go on over several lines: a single line end within it
becomes a blank, and of several the first one is dropped. Blanks next to a line
end do not count. Double quotes admit escapes, single quotes only a doubled
quote.
-/

namespace CurrencyPad.Yaml.Quoted

def escapedChar? (c : Char) : Option Char :=
  match c with
  | '0' => some '\x00'
  | 'a' => some '\x07'
  | 'b' => some '\x08'
  | 't' => some '\t'
  | '\t' => some '\t'
  | 'n' => some '\n'
  | 'v' => some '\x0B'
  | 'f' => some '\x0C'
  | 'r' => some '\r'
  | 'e' => some '\x1B'
  | ' ' => some ' '
  | '\x22' => some '\x22'
  | '\\' => some '\\'
  | '/' => some '/'
  | 'N' => some '\u0085'
  | '_' => some '\u00A0'
  | 'L' => some '\u2028'
  | 'P' => some '\u2029'
  | _ => none

/-- The number of hexadecimal digits after an escape letter that takes some. -/
def escapeWidth? (c : Char) : Option Nat :=
  match c with
  | 'x' => some 2
  | 'u' => some 4
  | 'U' => some 8
  | _ => none

def codePoint (width : Nat) (digits : Text) : Except YamlError Nat :=
  if digits.length = width ∧ digits.all (Integer.isDigitIn 16) then
    let code := Integer.valueIn 16 digits
    if code < 0x110000 then .ok code
    else if code < 0x80000000 then .error .noCodePoint
    else .error .codeTooLarge
  else .error .malformed

/-- The line ends from the start of a line on, with the blanks around them
passed over; the document must not end there. -/
def breaks : Nat → Cursor → Except YamlError (Text × Cursor)
  | 0, _ => .error .malformed
  | steps + 1, cursor =>
    if cursor.atDocumentMark then .error .malformed
    else
      let cursor := cursor.advanceWhile isSpace
      match cursor.peek with
      | some c =>
        if isBreak c then
          (breaks steps cursor.next).map fun (rest, after) =>
            (breakText c :: rest, after)
        else .ok ([], cursor)
      | none => .ok ([], cursor)

/-- Reads the white space here: blanks and tabs as they are, or what line ends
become. -/
def gap (cursor : Cursor) : Except YamlError (Text × Cursor) :=
  let after := cursor.advanceWhile isSpace
  match after.peek with
  | none => .error .malformed
  | some c =>
    if isBreak c then
      (breaks (after.rest.length + 1) after.next).map fun (more, after) =>
        if breakText c != '\n' then (breakText c :: more, after)
        else if more.isEmpty then ([' '], after)
        else (more, after)
    else .ok (cursor.run isSpace, after)

def escape (cursor : Cursor) : Except YamlError (List Nat × Cursor) :=
  match cursor.next.peek with
  | none => .error .malformed
  | some c =>
    let after := cursor.next.next
    match escapedChar? c, escapeWidth? c with
    | some c, _ => .ok ([c.toNat], after)
    | none, some width =>
      (codePoint width (after.rest.take width)).map fun point =>
        ([point], after.advance width)
    | none, none =>
      if isBreak c then
        (breaks (after.rest.length + 1) after).map fun (text, after) =>
          (text.map Char.toNat, after)
      else .error .malformed

/-- Reads on after the opening quote and the given code points, which come in
reverse order. -/
def pointsFrom (quote : Char) :
    Nat → List Nat → Cursor → Except YamlError (List Nat × Cursor)
  | 0, _, _ => .error .malformed
  | steps + 1, before, cursor =>
    match cursor.peek with
    | none => .error .malformed
    | some c =>
      if c == quote then
        if quote == '\x27' && cursor.next.peek == some quote then
          pointsFrom quote steps (c.toNat :: before) cursor.next.next
        else .ok (before.reverse, cursor.next)
      else if isSpace c || isBreak c then
        match gap cursor with
        | .ok (text, after) =>
          pointsFrom quote steps ((text.map Char.toNat).reverse ++ before) after
        | .error error => .error error
      else if c == '\\' && quote == '\x22' then
        match escape cursor with
        | .ok (points, after) =>
          pointsFrom quote steps (points.reverse ++ before) after
        | .error error => .error error
      else pointsFrom quote steps (c.toNat :: before) cursor.next

def scan (cursor : Cursor) : Except YamlError (Token × Cursor) :=
  let quote := cursor.peek.getD '\x22'
  (pointsFrom quote (cursor.rest.length + 1) [] cursor.next).map
    fun (points, after) => (.scalar points false, after)

end CurrencyPad.Yaml.Quoted
