import CurrencyPad.Text.Bytes
import CurrencyPad.Text.Integer
import CurrencyPad.Yaml.Token

/-!
# Anchors, tags and directives

A node can be given a name by an anchor, under which an alias finds it again,
and a type by a tag. A directive tells the version of the language or what a
handle at the start of tags stands for.
-/

namespace CurrencyPad.Yaml.Property

def isNameChar (c : Char) : Bool :=
  c.isAlphanum || c == '-' || c == '_'

/-- A character of a tag, escapes apart. -/
def isTagChar (c : Char) : Bool :=
  c.isAlphanum || "-;/?:@&=+$,_.!~*'()[]".toList.contains c

def name (cursor : Cursor) : Except YamlError (Text × Cursor) :=
  let name := cursor.next.run isNameChar
  let after := cursor.next.advance name.length
  if !name.isEmpty &&
      (endsToken after.peek ||
        after.peek.any "?:,]\x7d%@\x60".toList.contains) then
    .ok (name, after)
  else .error .malformed

/-- Reads bytes that are written as percent signs with two hexadecimal digits
each. -/
def escapedBytes : Nat → Cursor → Except YamlError (List UInt8 × Cursor)
  | 0, _ => .error .malformed
  | steps + 1, cursor =>
    if cursor.peek != some '%' then .ok ([], cursor)
    else
      let digits := cursor.next.rest.take 2
      if digits.length = 2 ∧ digits.all (Integer.isDigitIn 16) then
        (escapedBytes steps (cursor.advance 3)).map fun (rest, after) =>
          (UInt8.ofNat (Integer.valueIn 16 digits) :: rest, after)
      else .error .malformed

/-- Reads on in a tag after the given text, which comes in reverse order. -/
def tagTextFrom : Nat → Text → Cursor → Except YamlError (Text × Cursor)
  | 0, _, _ => .error .malformed
  | steps + 1, before, cursor =>
    match cursor.peek with
    | some '%' =>
      match escapedBytes (cursor.rest.length + 1) cursor with
      | .ok (content, after) =>
        let text := Text.ofBytes content
        if Text.toBytes text = content then
          tagTextFrom steps (text.reverse ++ before) after
        else .error .malformed
      | .error error => .error error
    | some c =>
      if isTagChar c then tagTextFrom steps (c :: before) cursor.next
      else .ok (before.reverse, cursor)
    | none => .ok (before.reverse, cursor)

def tagText (cursor : Cursor) : Except YamlError (Text × Cursor) :=
  if cursor.peek.any fun c => isTagChar c || c == '%' then
    tagTextFrom (cursor.rest.length + 1) [] cursor
  else .error .malformed

/-- Reads the handle of a tag: an exclamation mark, or a name between two of
them. -/
def handle (cursor : Cursor) : Except YamlError (Text × Cursor) :=
  if cursor.peek != some '!' then .error .malformed
  else
    let name := cursor.next.run isNameChar
    let after := cursor.next.advance name.length
    if after.peek == some '!' then .ok ('!' :: name ++ ['!'], after.next)
    else if cursor.next.peek == some ' ' then .ok (['!'], cursor.next)
    else .error .malformed

/-- Whether a second exclamation mark stands in the word after the first. -/
def hasHandle (cursor : Cursor) : Bool :=
  (cursor.next.run fun c => !endsWord (some c)).contains '!'

def tag (cursor : Cursor) : Except YamlError (Token × Cursor) := do
  let (token, after) ←
    if cursor.next.peek == some '<' then do
      let (text, after) ← tagText cursor.next.next
      if after.peek != some '>' then throw .malformed
      pure (Token.tag none text, after.next)
    else if endsToken cursor.next.peek then pure (.tag none ['!'], cursor.next)
    else if hasHandle cursor then do
      let (handle, after) ← handle cursor
      let (text, after) ← tagText after
      pure (.tag (some handle) text, after)
    else do
      let (text, after) ← tagText cursor.next
      pure (.tag (some ['!']) text, after)
  if endsWord after.peek then return (token, after) else throw .malformed

def number (cursor : Cursor) : Except YamlError (Nat × Cursor) :=
  let digits := cursor.run Text.isAsciiDigit
  if digits.isEmpty then .error .malformed
  else if Integer.digitLimit < digits.length then
    .error (.tooManyDigits digits.length)
  else .ok (Decimal.digitsValue digits, cursor.advance digits.length)

def version (cursor : Cursor) : Except YamlError (Directive × Cursor) := do
  let (major, after) ← number cursor.skipBlanks
  if after.peek != some '.' then throw .malformed
  let (minor, after) ← number after.next
  if endsWord after.peek then return (.version major minor, after)
  else throw .malformed

def shorthand (cursor : Cursor) : Except YamlError (Directive × Cursor) := do
  let (handle, after) ← handle cursor.skipBlanks
  if after.peek != some ' ' then throw .malformed
  let (replaced, after) ← tagText after.skipBlanks
  if endsWord after.peek then return (.tag handle replaced, after)
  else throw .malformed

def directive (cursor : Cursor) : Except YamlError (Token × Cursor) := do
  let name := cursor.next.run isNameChar
  let after := cursor.next.advance name.length
  if name.isEmpty || !endsWord after.peek then throw .malformed
  let (directive, after) ←
    if name = "YAML".toList then version after
    else if name = "TAG".toList then shorthand after
    else pure (.other, after.advanceWhile (!isBreak ·))
  let after := after.skipBlanks.skipComment
  if endsLine after.peek then return (.directive directive, after.next)
  else throw .malformed

end CurrencyPad.Yaml.Property
