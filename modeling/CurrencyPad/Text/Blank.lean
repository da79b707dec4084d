import CurrencyPad.Text.Basic

/-!
# Blanks and lines

The characters that separate without being seen: every Unicode white-space
character and the four information separators U+001C to U+001F.

A text is cut into lines at every Unicode line boundary. A carriage return that
a line feed follows is one boundary with it, and a boundary at the end of the
text opens no further line.
-/

namespace CurrencyPad.Text

def blankRanges : List (Nat × Nat) :=
  [ (0x0009, 0x000D), (0x001C, 0x0020), (0x0085, 0x0085), (0x00A0, 0x00A0),
    (0x1680, 0x1680), (0x2000, 0x200A), (0x2028, 0x2029), (0x202F, 0x202F),
    (0x205F, 0x205F), (0x3000, 0x3000) ]

def isBlank (c : Char) : Bool :=
  inRanges blankRanges c

/-- A white-space character of Unicode; the information separators are blank but
are none of them. -/
def isWhiteSpace (c : Char) : Bool :=
  isBlank c && !inRange c (0x001C, 0x001F)

def strip (text : Text) : Text :=
  dropTrailing isBlank (text.dropWhile isBlank)

def trim (text : Text) : Text :=
  dropTrailing isWhiteSpace (text.dropWhile isWhiteSpace)

/-- A text that shows nothing: it is empty or holds blanks only. -/
def isBlankText (text : Text) : Bool :=
  text.all isBlank

def lineBreakRanges : List (Nat × Nat) :=
  [ (0x000A, 0x000D), (0x001C, 0x001E), (0x0085, 0x0085), (0x2028, 0x2029) ]

def isLineBreak (c : Char) : Bool :=
  inRanges lineBreakRanges c

/-- The lines of a text whose current line starts with the given characters, in
reverse order. -/
def linesFrom : Text → Text → List Text
  | [], [] => []
  | line, [] => [line.reverse]
  | line, '\r' :: '\n' :: rest => line.reverse :: linesFrom [] rest
  | line, c :: rest =>
    if isLineBreak c then line.reverse :: linesFrom [] rest
    else linesFrom (c :: line) rest

def lines (text : Text) : List Text :=
  linesFrom [] text

end CurrencyPad.Text
