/-!
# Texts

A text is a sequence of Unicode characters. Lengths and positions count
characters, and texts are ordered by their code points.
-/

namespace CurrencyPad

/-- A sequence of Unicode characters. -/
abbrev Text := List Char

namespace Text

/-- Whether a character lies in a run of code points, both ends included. -/
def inRange (c : Char) (range : Nat × Nat) : Bool :=
  range.1 ≤ c.toNat && c.toNat ≤ range.2

/-- Whether a character lies in one of several runs of code points. -/
def inRanges (ranges : List (Nat × Nat)) (c : Char) : Bool :=
  ranges.any (inRange c)

/-- Whether a code point is half of a character above U+FFFF and none by
itself. -/
def isHalf (point : Nat) : Bool :=
  0xD800 ≤ point && point < 0xE000

/-- The text of code points, if no half of a character is among them. -/
def ofPoints? (points : List Nat) : Option Text :=
  if points.any isHalf then none else some (points.map Char.ofNat)

/-- The order of texts by code points; a text comes before its extensions. -/
def le : Text → Text → Bool
  | [], _ => true
  | _ :: _, [] => false
  | a :: left, b :: right =>
    if a = b then le left right else a < b

/-- The order of lists by their first difference; a list comes before its
extensions. -/
def listLe : List Int → List Int → Bool
  | [], _ => true
  | _ :: _, [] => false
  | a :: left, b :: right => if a = b then listLe left right else a < b

def dropTrailing (condition : Char → Bool) (text : Text) : Text :=
  (text.reverse.dropWhile condition).reverse

/-- The text of a number with a minus sign where the number is negative. -/
def withSign (negative : Bool) (text : Text) : Text :=
  if negative then '-' :: text else text

/-- The texts one after another with a separator between neighbours. -/
def join (separator : Text) : List Text → Text
  | [] => []
  | [text] => text
  | text :: rest => text ++ separator ++ join separator rest

/-- The parts of a text between the occurrences of a character; there is always
at least one. -/
def splitAt (separator : Char) : Text → List Text
  | [] => [[]]
  | c :: rest =>
    if c = separator then [] :: splitAt separator rest
    else
      match splitAt separator rest with
      | [] => [[c]]
      | first :: others => (c :: first) :: others

end Text

end CurrencyPad
