import CurrencyPad.Text.Basic

/-!
# Places in a YAML text

A place is the text that is still to be read with its position, line and column.
Between tokens blanks, comments and line ends are passed over; a tab is no blank
there.
-/

namespace CurrencyPad.Yaml

structure Cursor where
  rest : Text
  /-- The number of characters before the place. -/
  position : Nat
  line : Nat
  column : Nat
deriving Repr

def isBreak (c : Char) : Bool :=
  c == '\n' || c == '\r' || c == '\u0085' || c == '\u2028' || c == '\u2029'

/-- A blank or a tab. -/
def isSpace (c : Char) : Bool :=
  c == ' ' || c == '\t'

def endsLine (c : Option Char) : Bool :=
  c.all isBreak

/-- A character that ends a word, or the end of the text. A tab ends none. -/
def endsWord (c : Option Char) : Bool :=
  c.all fun c => c == ' ' || isBreak c

def endsToken (c : Option Char) : Bool :=
  c.all fun c => isSpace c || isBreak c

/-- What a line end becomes inside a scalar. -/
def breakText (c : Char) : Char :=
  if c == '\u2028' || c == '\u2029' then c else '\n'

/-- The mark of byte order, which takes no column. -/
def byteOrderMark : Char := '\uFEFF'

namespace Cursor

def start (text : Text) : Cursor :=
  ⟨text, 0, 0, 0⟩

def peek (cursor : Cursor) : Option Char :=
  cursor.rest.head?

def next (cursor : Cursor) : Cursor :=
  match cursor.rest with
  | [] => cursor
  | c :: rest =>
    if isBreak c then ⟨rest, cursor.position + 1, cursor.line + 1, 0⟩
    else
      ⟨rest, cursor.position + 1, cursor.line,
        if c == byteOrderMark then cursor.column else cursor.column + 1⟩

def advance (cursor : Cursor) : Nat → Cursor
  | 0 => cursor
  | count + 1 => cursor.next.advance count

/-- The place after the characters from here on that satisfy a condition. -/
def advanceWhile (condition : Char → Bool) (cursor : Cursor) : Cursor :=
  cursor.advance (cursor.rest.takeWhile condition).length

def run (condition : Char → Bool) (cursor : Cursor) : Text :=
  cursor.rest.takeWhile condition

def skipBlanks (cursor : Cursor) : Cursor :=
  cursor.advanceWhile (· == ' ')

def skipComment (cursor : Cursor) : Cursor :=
  if cursor.peek == some '#' then cursor.advanceWhile (!isBreak ·) else cursor

/-- The next token and whether a line end is passed over on the way to it,
within a number of lines. -/
def skipLines : Nat → Bool → Cursor → Cursor × Bool
  | 0, sawBreak, cursor => (cursor, sawBreak)
  | lines + 1, sawBreak, cursor =>
    let cursor := cursor.skipBlanks.skipComment
    if cursor.peek.any isBreak then skipLines lines true cursor.next
    else (cursor, sawBreak)

/-- The next token and whether a line end is passed over on the way to it. -/
def skip (cursor : Cursor) : Cursor × Bool :=
  let cursor :=
    if cursor.position = 0 ∧ cursor.peek = some byteOrderMark then cursor.next
    else cursor
  skipLines (cursor.rest.length + 1) false cursor

def atMarker (cursor : Cursor) (mark : Char) : Bool :=
  [mark, mark, mark].isPrefixOf cursor.rest &&
    endsToken (cursor.rest.drop 3).head?

def atDocumentMark (cursor : Cursor) : Bool :=
  cursor.atMarker '-' || cursor.atMarker '.'

end Cursor

end CurrencyPad.Yaml
