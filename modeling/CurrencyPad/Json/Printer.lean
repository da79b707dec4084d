import CurrencyPad.Binary64.Text
import CurrencyPad.Json.Basic
import CurrencyPad.Text.Integer
import CurrencyPad.Text.Quoted

/-!
# Printing JSON

Values are printed in ASCII: every other character of a string is escaped by its
UTF-16 units. Fields stand in the order of their names, so equal objects have
equal texts. The one-line form separates with a comma and a blank; the indented
form gives every item a line of its own. A value that holds a whole number with
more digits than are read again is not printable.
-/

namespace CurrencyPad.Json

def unitEscape (unit : Nat) : Text :=
  '\\' :: 'u' :: Text.hexDigits 4 unit

/-- A character as escapes of its UTF-16 units, two of them above U+FFFF. -/
def charEscape (c : Char) : Text :=
  let code := c.toNat
  if code < 0x10000 then unitEscape code
  else
    unitEscape (0xD800 + (code - 0x10000) / 0x400) ++
      unitEscape (0xDC00 + (code - 0x10000) % 0x400)

def stringChar (c : Char) : Text :=
  if c = '\x22' ∨ c = '\\' then ['\\', c]
  else if c = '\n' then ['\\', 'n']
  else if c = '\r' then ['\\', 'r']
  else if c = '\t' then ['\\', 't']
  else if c = '\x0C' then ['\\', 'f']
  else if c = '\x08' then ['\\', 'b']
  else if ' ' ≤ c ∧ c ≤ '~' then [c]
  else charEscape c

def stringText (value : Text) : Text :=
  '\x22' :: value.flatMap stringChar ++ ['\x22']

def stringPoint (point : Nat) : Text :=
  if Text.isHalf point then unitEscape point else stringChar (Char.ofNat point)

def pointsText (points : List Nat) : Text :=
  '\x22' :: points.flatMap stringPoint ++ ['\x22']

def integerText (value : Int) : Text :=
  Text.withSign (value < 0) (Decimal.digits value.natAbs)

/-- A double; infinity and the absence of a number have words of their own. -/
def realText (value : Float) : Text :=
  if value.isNaN then "NaN".toList
  else if value.isInf then Text.withSign (value < 0) "Infinity".toList
  else Binary64.text value

/-- The white space of a layout between the items of an array or object. -/
structure Layout where
  /-- What stands before an item on a level, the outermost level being 0. -/
  lineStart : Nat → Text
  /-- What stands between two items on a level. -/
  separator : Nat → Text

def Layout.oneLine : Layout where
  lineStart _ := []
  separator _ := ", ".toList

/-- A line for each item, two blanks further in on each level. -/
def Layout.indented : Layout where
  lineStart level := '\n' :: List.replicate (2 * level) ' '
  separator level := ',' :: '\n' :: List.replicate (2 * level) ' '

def Layout.enclose (layout : Layout) (level : Nat) (opening closing : Char)
    (parts : List Text) : Text :=
  if parts.isEmpty then [opening, closing]
  else
    opening :: layout.lineStart (level + 1) ++
      Text.join (layout.separator (level + 1)) parts ++
      layout.lineStart level ++ [closing]

mutual

def render (layout : Layout) (level : Nat) : Json → Text
  | .null => "null".toList
  | .boolean true => "true".toList
  | .boolean false => "false".toList
  | .integer value => integerText value
  | .real value => realText value
  | .string value => stringText value
  | .broken points => pointsText points
  | .array items =>
    layout.enclose level '[' ']' (renderItems layout (level + 1) items)
  | .object fields =>
    layout.enclose level '\x7b' '\x7d'
      ((Table.sorted (renderFields layout (level + 1) fields)).map fun part =>
        stringText part.1 ++ ": ".toList ++ part.2)
  | .brokenObject fields =>
    let parts :=
      (renderBroken layout (level + 1) fields).mergeSort fun left right =>
        Text.listLe (left.1.map Int.ofNat) (right.1.map Int.ofNat)
    layout.enclose level '\x7b' '\x7d'
      (parts.map fun part => pointsText part.1 ++ ": ".toList ++ part.2)

def renderItems (layout : Layout) (level : Nat) : List Json → List Text
  | [] => []
  | item :: rest => render layout level item :: renderItems layout level rest

/-- The names and the printed values of the fields of an object. -/
def renderFields (layout : Layout) (level : Nat) :
    List (Text × Json) → List (Text × Text)
  | [] => []
  | (name, value) :: rest =>
    (name, render layout level value) :: renderFields layout level rest

/-- The names as code points and the printed values of the fields of an object. -/
def renderBroken (layout : Layout) (level : Nat) :
    List (List Nat × Json) → List (List Nat × Text)
  | [] => []
  | (name, value) :: rest =>
    (name, render layout level value) :: renderBroken layout level rest

end

def toLine (value : Json) : Text :=
  render .oneLine 0 value

def toIndented (value : Json) : Text :=
  render .indented 0 value

mutual

def isPrintable : Json → Bool
  | .integer value => Decimal.digitCount value.natAbs ≤ Integer.digitLimit
  | .array items => areItemsPrintable items
  | .object fields => areFieldsPrintable fields
  | .brokenObject fields => areBrokenPrintable fields
  | _ => true

def areItemsPrintable : List Json → Bool
  | [] => true
  | item :: rest => isPrintable item && areItemsPrintable rest

def areFieldsPrintable : List (Text × Json) → Bool
  | [] => true
  | (_, value) :: rest => isPrintable value && areFieldsPrintable rest

def areBrokenPrintable : List (List Nat × Json) → Bool
  | [] => true
  | (_, value) :: rest => isPrintable value && areBrokenPrintable rest

end

end CurrencyPad.Json
