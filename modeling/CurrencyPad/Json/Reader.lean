import CurrencyPad.Binary64.Text
import CurrencyPad.Json.Basic
import CurrencyPad.Text.Integer

/-!
# Reading JSON

A text is read as one JSON value with white space around it. A number with a
point or a power of ten is a double, any other a whole number; `NaN`, `Infinity`
and `-Infinity` are read too. A control character must be escaped inside a
string. Where a name occurs twice in an object, its last value counts.
-/

namespace CurrencyPad.Json

/-- What is read at the start of a text, and the rest. -/
abbrev Part (α : Type) := Except Integer.Fault (α × Text)

/-- What is read where something must stand that may be missing. -/
def ofOption {α : Type} (found : Option (α × Text)) : Part α :=
  match found with
  | some part => .ok part
  | none => .error .malformed

def isSpace (c : Char) : Bool :=
  c == ' ' || c == '\t' || c == '\n' || c == '\r'

def skipSpace (text : Text) : Text :=
  text.dropWhile isSpace

def hexValue? (c : Char) : Option Nat :=
  if '0' ≤ c ∧ c ≤ '9' then some (c.toNat - 0x30)
  else if 'a' ≤ c ∧ c ≤ 'f' then some (c.toNat - 0x57)
  else if 'A' ≤ c ∧ c ≤ 'F' then some (c.toNat - 0x37)
  else none

/-- The UTF-16 unit of an escape with four hexadecimal digits. -/
def unitValue? (a b c d : Char) : Option Nat := do
  let a ← hexValue? a
  let b ← hexValue? b
  let c ← hexValue? c
  let d ← hexValue? d
  return a * 0x1000 + b * 0x100 + c * 0x10 + d

def escapedChar? (c : Char) : Option Nat :=
  if c = '\x22' ∨ c = '\\' ∨ c = '/' then some c.toNat
  else if c = 'b' then some 0x08
  else if c = 'f' then some 0x0C
  else if c = 'n' then some 0x0A
  else if c = 'r' then some 0x0D
  else if c = 't' then some 0x09
  else none

/-- The code points and UTF-16 units of a string whose opening quote is read,
and the text after its closing quote. -/
def stringUnits? : Text → Option (List Nat × Text)
  | [] => none
  | '\x22' :: rest => some ([], rest)
  | '\\' :: 'u' :: a :: b :: c :: d :: rest => do
    let unit ← unitValue? a b c d
    let (units, after) ← stringUnits? rest
    return (unit :: units, after)
  | '\\' :: c :: rest => do
    let code ← escapedChar? c
    let (units, after) ← stringUnits? rest
    return (code :: units, after)
  | c :: rest =>
    if c = '\\' ∨ c < ' ' then none
    else do
      let (units, after) ← stringUnits? rest
      return (c.toNat :: units, after)

/-- The first half of a character above U+FFFF. -/
def isHighUnit (unit : Nat) : Bool :=
  0xD800 ≤ unit && unit < 0xDC00

/-- The second half of a character above U+FFFF. -/
def isLowUnit (unit : Nat) : Bool :=
  0xDC00 ≤ unit && unit < 0xE000

/-- The code points of code points and UTF-16 units. Two halves of a character
are put together; a half without its partner stays as it is. -/
def joinUnits : List Nat → List Nat
  | [] => []
  | [unit] => [unit]
  | high :: low :: rest =>
    if isHighUnit high && isLowUnit low then
      (0x10000 + (high - 0xD800) * 0x400 + (low - 0xDC00)) :: joinUnits rest
    else high :: joinUnits (low :: rest)

/-- The code points of a string whose opening quote is read. -/
def string? (text : Text) : Option (List Nat × Text) :=
  (stringUnits? text).map fun (units, after) => (joinUnits units, after)

/-- The fraction of a number with its point, if a digit follows the point. -/
def fractionPart (text : Text) : Text × Text :=
  match text with
  | '.' :: rest =>
    let (digits, after) := rest.span Text.isAsciiDigit
    if digits.isEmpty then ([], text) else ('.' :: digits, after)
  | _ => ([], text)

/-- The power of ten of a number with its mark, if a digit follows the mark and
its sign. -/
def powerPart (text : Text) : Text × Text :=
  match text with
  | [] => ([], text)
  | mark :: rest =>
    if mark = 'e' ∨ mark = 'E' then
      let (sign, body) :=
        match rest with
        | '+' :: body => (['+'], body)
        | '-' :: body => (['-'], body)
        | body => ([], body)
      let (digits, after) := body.span Text.isAsciiDigit
      if digits.isEmpty then ([], text) else (mark :: sign ++ digits, after)
    else ([], text)

/-- The digits of the whole part of a number; a zero at the start stands alone. -/
def wholePart (text : Text) : Text × Text :=
  match text with
  | '0' :: rest => (['0'], rest)
  | _ => text.span Text.isAsciiDigit

def number (negative : Bool) (text : Text) : Part Json :=
  let (whole, afterWhole) := wholePart text
  if whole.isEmpty then .error .malformed
  else
    let (fraction, afterFraction) := fractionPart afterWhole
    let (power, after) := powerPart afterFraction
    if fraction.isEmpty && power.isEmpty then
      if Integer.digitLimit < whole.length then
        .error (.tooManyDigits whole.length)
      else
        let value : Int := Decimal.digitsValue whole
        .ok (.integer (if negative then -value else value), after)
    else
      ofOption
        ((Decimal.ofText?
          (Text.withSign negative (whole ++ fraction ++ power))).map
          fun d => (.real (Binary64.ofDecimal d), after))

def words : List (Text × Json) :=
  [ ("null".toList, .null), ("true".toList, .boolean true),
    ("false".toList, .boolean false),
    ("NaN".toList, .real (0.0 / 0.0)), ("Infinity".toList, .real (1.0 / 0.0)),
    ("-Infinity".toList, .real (-1.0 / 0.0)) ]

def word? (text : Text) : Option (Json × Text) :=
  (words.find? fun word => word.1.isPrefixOf text).map fun word =>
    (word.2, text.drop word.1.length)

mutual

/-- The value at the start of a text and the rest. The number bounds the depth
of the reading; two steps for each character are enough. -/
def value : Nat → Text → Part Json
  | 0, _ => .error .malformed
  | depth + 1, text =>
    match word? text with
    | some found => .ok found
    | none =>
      match text with
      | '\x22' :: rest =>
        (ofOption (string? rest)).map fun (points, after) =>
          (ofPoints points, after)
      | '[' :: rest =>
        match skipSpace rest with
        | ']' :: after => .ok (.array [], after)
        | start =>
          (items depth start).map fun (items, after) => (.array items, after)
      | '\x7b' :: rest =>
        match skipSpace rest with
        | '\x7d' :: after => .ok (.object [], after)
        | start =>
          (fields depth [] start).map fun (fields, after) =>
            (ofFields fields, after)
      | '-' :: rest => number true rest
      | _ => number false text

/-- The items of an array from one of them to the closing bracket. -/
def items : Nat → Text → Part (List Json)
  | 0, _ => .error .malformed
  | depth + 1, text =>
    (value depth (skipSpace text)).bind fun (item, after) =>
      match skipSpace after with
      | ']' :: rest => .ok ([item], rest)
      | ',' :: rest =>
        (items depth rest).map fun (items, rest) => (item :: items, rest)
      | _ => .error .malformed

/-- The fields of an object from one of them to the closing brace, after those
already read. -/
def fields : Nat → List (List Nat × Json) → Text → Part (List (List Nat × Json))
  | 0, _, _ => .error .malformed
  | depth + 1, before, text =>
    match skipSpace text with
    | '\x22' :: start =>
      (ofOption (string? start)).bind fun (name, afterName) =>
        match skipSpace afterName with
        | ':' :: afterColon =>
          (value depth (skipSpace afterColon)).bind fun (value, after) =>
            let before := Table.setEntry before name value
            match skipSpace after with
            | '\x7d' :: rest => .ok (before, rest)
            | ',' :: rest => fields depth before rest
            | _ => .error .malformed
        | _ => .error .malformed
    | _ => .error .malformed

end

def ofText (text : Text) : Except Integer.Fault Json :=
  (value (2 * text.length + 2) (skipSpace text)).bind fun (value, rest) =>
    if (skipSpace rest).isEmpty then .ok value else .error .malformed

end CurrencyPad.Json
