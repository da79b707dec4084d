import CurrencyPad.Decimal.Reading
import CurrencyPad.Yaml.Token

/-!
# Block scalars

A block scalar is the indented text after a bar or an angle bracket. After a bar
the lines stay as they are; after an angle bracket they are folded, except where
a line starts with white space. Signs after the mark tell what becomes of the
line ends after the last line.
-/

namespace CurrencyPad.Yaml.Block

/-- What becomes of the line ends after the last line. -/
inductive Chomping where
  /-- One is kept. -/
  | clip
  | strip
  | keep
deriving DecidableEq, Repr

def chomping? (c : Char) : Option Chomping :=
  if c = '+' then some .keep else if c = '-' then some .strip else none

def sign (cursor : Cursor) : Option Chomping × Cursor :=
  match cursor.peek.bind chomping? with
  | some chomping => (some chomping, cursor.next)
  | none => (none, cursor)

def width (cursor : Cursor) : Except YamlError ((Option Nat) × Cursor) :=
  match cursor.peek with
  | some c =>
    if c = '0' then .error .malformed
    else if Text.isAsciiDigit c then
      .ok (some (Decimal.digitsValue [c]), cursor.next)
    else .ok (none, cursor)
  | none => .ok (none, cursor)

/-- Reads what follows the mark on its line: a sign and a digit in any order,
and a comment. -/
def header (cursor : Cursor) :
    Except YamlError ((Chomping × Option Nat) × Cursor) := do
  let (first, cursor) := sign cursor
  let (digit, cursor) ← width cursor
  let (last, cursor) :=
    if first.isNone && digit.isSome then sign cursor else (none, cursor)
  if !endsWord cursor.peek then throw .malformed
  let cursor := cursor.skipBlanks.skipComment
  if !endsLine cursor.peek then throw .malformed
  return (((first.orElse fun _ => last).getD .clip, digit), cursor.next)

/-- The line ends before the first line with text, and the greatest column that
blanks reach there. -/
def leading : Nat → Text → Nat → Cursor → Text × Nat × Cursor
  | 0, before, reach, cursor => (before.reverse, reach, cursor)
  | steps + 1, before, reach, cursor =>
    match cursor.peek with
    | some c =>
      if isBreak c then leading steps (breakText c :: before) reach cursor.next
      else if c == ' ' then
        leading steps before (max reach cursor.next.column) cursor.next
      else (before.reverse, reach, cursor)
    | none => (before.reverse, reach, cursor)

/-- The place after the blanks before a column. -/
def indentTo (indent : Nat) (cursor : Cursor) : Cursor :=
  cursor.advance (min (cursor.run (· == ' ')).length (indent - cursor.column))

/-- The line ends from the start of a line on, with blanks before a column
passed over. -/
def breaks (indent : Nat) : Nat → Cursor → Text × Cursor
  | 0, cursor => ([], cursor)
  | steps + 1, cursor =>
    let cursor := indentTo indent cursor
    match cursor.peek with
    | some c =>
      if isBreak c then
        let (rest, after) := breaks indent steps cursor.next
        (breakText c :: rest, after)
      else ([], cursor)
    | none => ([], cursor)

def lineEnd (cursor : Cursor) : Text :=
  match cursor.peek with
  | some c => if isBreak c then [breakText c] else []
  | none => []

/-- What stands between two lines of a scalar: the line end after the first,
unless it is folded. Line ends that follow it come after this. -/
def joint (folded : Bool) (first : Text) (ending : Text) (more : Text)
    (after : Cursor) : Text :=
  if folded && ending == ['\n'] &&
      !first.head?.any isSpace && !after.peek.any isSpace then
    if more.isEmpty then [' '] else []
  else ending

/-- Reads the lines at a column after the given text, which comes in reverse
order, and the line ends before the first of them. -/
def linesFrom (folded : Bool) (chomping : Chomping) (indent : Nat) :
    Nat → Text → Text → Cursor → Text × Cursor
  | 0, before, _, cursor => (before.reverse, cursor)
  | steps + 1, before, leading, cursor =>
    let line := cursor.run (!isBreak ·)
    let before := line.reverse ++ leading.reverse ++ before
    let atEnd := cursor.advance line.length
    let ending := lineEnd atEnd
    let (more, after) := breaks indent (atEnd.rest.length + 1) atEnd.next
    if after.column = indent ∧ after.peek.isSome then
      linesFrom folded chomping indent steps
        ((joint folded line ending more after).reverse ++ before)
        more after
    else
      let last :=
        match chomping with
        | .strip => []
        | .clip => ending
        | .keep => ending ++ more
      (before.reverse ++ last, after)

def content (folded : Bool) (chomping : Chomping) (least : Nat)
    (width : Option Nat) (cursor : Cursor) : Text × Cursor :=
  let steps := cursor.rest.length + 1
  let (indent, first, start) :=
    match width with
    | some width =>
      let indent := least + width - 1
      let (first, start) := breaks indent steps cursor
      (indent, first, start)
    | none =>
      let (first, reach, start) := leading steps [] 0 cursor
      (max least reach, first, start)
  if start.column = indent ∧ start.peek.isSome then
    linesFrom folded chomping indent steps [] first start
  else (if chomping = .keep then first else [], start)

def scan (indent : Int) (cursor : Cursor) :
    Except YamlError (Token × Cursor) := do
  let ((chomping, width), after) ← header cursor.next
  let least := (max (indent + 1) 1).toNat
  let (text, after) :=
    content (cursor.peek == some '>') chomping least width after
  return (.ofText text false, after)

end CurrencyPad.Yaml.Block
