import CurrencyPad.Yaml.Token

/-!
# Scalars without quotes

A plain scalar ends before a colon that stands alone, before a comment and,
inside brackets, before a character with a meaning of its own. It may go on over
several lines, which are folded like those of a scalar in quotes.
-/

namespace CurrencyPad.Yaml.Plain

/-- A character that separates or closes the parts of a flow collection. -/
def isFlowIndicator (c : Char) : Bool :=
  c == ',' || c == '[' || c == ']' || c == '\x7b' || c == '\x7d'

/-- Whether a plain scalar ends before a character, given the one after it. -/
def endsBefore (flow : Bool) (c : Char) (next : Option Char) : Bool :=
  endsToken (some c) ||
    (c == ':' && (endsToken next || (flow && next.any isFlowIndicator))) ||
    (flow && (isFlowIndicator c || c == '?'))

/-- The characters with a meaning of their own at the start of a token. -/
def indicators : List Char :=
  "-?:,[]\x7b\x7d#&*!|>'\x22%@\x60".toList

def startsHere (flow : Bool) (cursor : Cursor) : Bool :=
  match cursor.peek with
  | none => false
  | some c =>
    (!endsToken (some c) && !indicators.contains c) ||
      (!endsToken cursor.next.peek &&
        (c == '-' || (!flow && (c == '?' || c == ':'))))

/-- The number of characters up to the end of the word here. -/
def wordLength (flow : Bool) : Text → Nat
  | [] => 0
  | c :: rest =>
    if endsBefore flow c rest.head? then 0 else wordLength flow rest + 1

/-- The line ends from the start of a line on, with blanks passed over; none if
the document ends there. -/
def breaks : Nat → Cursor → Option Text × Cursor
  | 0, cursor => (none, cursor)
  | steps + 1, cursor =>
    if cursor.atDocumentMark then (none, cursor)
    else
      let after := cursor.skipBlanks
      match after.peek with
      | some c =>
        if isBreak c then
          let (rest, after) := breaks steps after.next
          (rest.map (breakText c :: ·), after)
        else (some [], after)
      | none => (some [], after)

/-- What the white space between two words of a scalar becomes, the place after
it, and whether there is a line end in it. Nothing comes of it where the scalar
ends. -/
def gap (cursor : Cursor) : Text × Cursor × Bool :=
  let after := cursor.skipBlanks
  match after.peek with
  | some c =>
    if isBreak c then
      let (more, after) := breaks (after.rest.length + 1) after.next
      match more with
      | none => ([], after, true)
      | some more =>
        if breakText c != '\n' then (breakText c :: more, after, true)
        else if more.isEmpty then ([' '], after, true)
        else (more, after, true)
    else (cursor.run (· == ' '), after, false)
  | none => (cursor.run (· == ' '), after, false)

/-- Reads on after the given text, which comes in reverse order and ends with
white space that counts if another word follows. The answer tells whether a line
end stands before the place. -/
def wordsFrom (flow : Bool) (indent : Int) :
    Nat → Text → Text → Bool → Cursor → Text × Cursor × Bool
  | 0, before, _, sawBreak, cursor => (before.reverse, cursor, sawBreak)
  | steps + 1, before, white, sawBreak, cursor =>
    let count :=
      if cursor.peek == some '#' then 0 else wordLength flow cursor.rest
    if count = 0 then (before.reverse, cursor, sawBreak)
    else
      let before := (cursor.rest.take count).reverse ++ white.reverse ++ before
      let (white, after, sawBreak) := gap (cursor.advance count)
      if white.isEmpty || after.peek == some '#' ||
          (!flow && after.column < indent) then
        (before.reverse, after, sawBreak)
      else wordsFrom flow indent steps before white sawBreak after

/-- Reads a plain scalar in a block that stands at the given column or inside
brackets. The answer tells whether a line end stands before the place after
it. -/
def scan (flow : Bool) (indent : Int) (cursor : Cursor) : Token × Cursor × Bool :=
  let (text, after, sawBreak) :=
    wordsFrom flow (indent + 1) (cursor.rest.length + 1) [] [] false cursor
  (.ofText text true, after, sawBreak)

end CurrencyPad.Yaml.Plain
