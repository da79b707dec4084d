import CurrencyPad.Decimal.Reading
import CurrencyPad.Binary64.Nearest
import CurrencyPad.Json.Basic
import CurrencyPad.Text.Blank
import CurrencyPad.Text.Bytes
import CurrencyPad.Validation.Error

/-!
# Field values

The value of a field before it is checked. Numbers and booleans are taken from
values of the other kind and from strings that spell them, but a string is never
made of anything else. Bytes count as the string that they are in UTF-8.
-/

namespace CurrencyPad

/-- A field value as far as the checks tell values apart. -/
inductive Datum where
  | null
  | boolean (value : Bool)
  | integer (value : Int)
  | real (value : Float)
  | string (value : Text)
  /-- A string with halves of characters. -/
  | brokenString
  | bytes (content : List UInt8)
  /-- A list, a mapping or a date. -/
  | compound

namespace Datum

def ofJson : Json → Datum
  | .null => .null
  | .boolean value => .boolean value
  | .integer value => .integer value
  | .real value => .real value
  | .string value => .string value
  | .broken _ => .brokenString
  | .array _ => .compound
  | .object _ => .compound
  | .brokenObject _ => .compound

/-- A text in which no underscore stands at an end or next to another one,
without its underscores. -/
def withoutUnderscores? (text : Text) : Option Text :=
  let parts := Text.splitAt '_' text
  if parts.length = 1 ∨ parts.all (!·.isEmpty) then some parts.flatten else none

def spelledFloat? (text : Text) : Option Float :=
  let read := fun text => (Decimal.readExtended? text).map Binary64.ofExtended
  match read (Text.trim text) with
  | some value => some value
  | none => (withoutUnderscores? text).bind read

/-- What counts of a row of zeros and underscores once its start is read, which
ends with the given character: all from the first other digit or minus sign on,
or the last character of the row and what follows it from a point on. -/
def afterZeros? (last : Char) : Text → Option Text
  | [] => some [last]
  | c :: rest =>
    if c = '0' ∨ c = '_' then afterZeros? c rest
    else if c = '-' ∨ Text.isAsciiDigit c then some (c :: rest)
    else if c = '.' then some (last :: c :: rest)
    else none

/-- A text that starts with a digit, without the zeros at its start. -/
def dropZeros? : Text → Option Text
  | [] => none
  | c :: rest =>
    if c = '0' then afterZeros? c rest
    else if Text.isAsciiDigit c then some (c :: rest)
    else none

/-- A text without the places after its point if there are some and all of them
are zero. -/
def dropPlaces (text : Text) : Text :=
  let places := (text.dropWhile (· != '.')).drop 1
  if !places.isEmpty && places.all (· == '0') then text.takeWhile (· != '.')
  else text

/-- The greatest number of characters of a whole number. -/
def integerLimit : Nat := 4300

/-- The whole number that is written without superfluous zeros, with or without
a minus sign. -/
def plainInteger (text : Text) : Except FieldFault Int :=
  let negative := text.head? == some '-'
  let body := if negative then text.drop 1 else text
  if body = ['0'] then .ok 0
  else
    let digits := body.takeWhile Text.isAsciiDigit
    if digits.isEmpty || digits.head? == some '0' then .error .intParsing
    else if integerLimit < digits.length + (if negative then 1 else 0) then
      .error .intParsingSize
    else if digits.length < body.length then .error .intParsing
    else
      let value : Int := Decimal.digitsValue digits
      .ok (if negative then -value else value)

/-- The whole number that a string spells. It may have zeros at its start, and
it may show places if they are all zero. -/
def spelledInteger (text : Text) : Except FieldFault Int :=
  let (negative, body) := Decimal.splitSign (Text.trim text)
  match dropZeros? body with
  | none => .error .intParsing
  | some row =>
    let row := dropPlaces row
    plainInteger (Text.withSign negative ((withoutUnderscores? row).getD row))

/-- The double that a string spells, as the value of a field. -/
def spelledFloat (text : Text) : Except FieldFault Float :=
  match spelledFloat? text with
  | some value => .ok value
  | none => .error .floatParsing

def trueWords : List Text :=
  ["1", "on", "t", "true", "y", "yes"].map String.toList

def falseWords : List Text :=
  ["0", "off", "f", "false", "n", "no"].map String.toList

def spelledBoolean (text : Text) : Except FieldFault Bool :=
  let word := Decimal.smallLetters text
  if trueWords.contains word then .ok true
  else if falseWords.contains word then .ok false
  else .error .boolParsing

/-- The text of bytes in UTF-8, or a fault. -/
def decoded (fault : FieldFault) (content : List UInt8) :
    Except FieldFault Text :=
  let text := Text.ofBytes content
  if Text.toBytes text = content then .ok text else .error fault

/-- Whether a whole number fits in 64 bits. -/
def fits (value : Int) : Bool :=
  -9223372036854775808 ≤ value && value < 9223372036854775808

def integerBoolean (value : Int) : Except FieldFault Bool :=
  if value = 0 then .ok false
  else if value = 1 then .ok true
  else if fits value then .error .boolParsing
  else .error .boolType

/-- The whole number that a double is. It must fit in 64 bits. -/
def wholeFloat (value : Float) : Except FieldFault Int :=
  if !value.isFinite then .error .finiteNumber
  else if value.floor != value then .error .intFromFloat
  else if value.abs < 9223372036854775808.0 then .ok value.toInt64.toInt
  else .error .intParsingSize

def asText : Datum → Except FieldFault Text
  | .string value => .ok value
  | .brokenString => .error .stringUnicode
  | .bytes content => decoded .stringUnicode content
  | _ => .error .stringType

def asOptionalText : Datum → Except FieldFault (Option Text)
  | .null => .ok none
  | datum => datum.asText.map some

def asFloat : Datum → Except FieldFault Float
  | .boolean value => .ok (if value then 1 else 0)
  | .integer value =>
    let converted := Binary64.ofDecimal ⟨value < 0, value.natAbs, 0⟩
    if converted.isFinite then .ok converted else .error .floatType
  | .real value => .ok value
  | .string value => spelledFloat value
  | .brokenString => .error .stringUnicode
  | .bytes content => (decoded .floatParsing content).bind spelledFloat
  | .null => .error .floatType
  | .compound => .error .floatType

def asInteger : Datum → Except FieldFault Int
  | .boolean value => .ok (if value then 1 else 0)
  | .integer value => .ok value
  | .real value => wholeFloat value
  | .string value => spelledInteger value
  | .brokenString => .error .stringUnicode
  | .bytes content => (decoded .intParsing content).bind spelledInteger
  | .null => .error .intType
  | .compound => .error .intType

def asBoolean : Datum → Except FieldFault Bool
  | .boolean value => .ok value
  | .integer value => integerBoolean value
  | .real value =>
    match wholeFloat value with
    | .ok value => integerBoolean value
    | .error _ => .error .boolType
  | .string value => spelledBoolean value
  | .brokenString => .error .stringUnicode
  | .bytes content => (decoded .boolParsing content).bind spelledBoolean
  | .null => .error .boolType
  | .compound => .error .boolType

end Datum

abbrev Fields := Table Datum

namespace Fields

def ofRecord (record : List (Text × Json)) : Fields :=
  record.map fun field => (field.1, Datum.ofJson field.2)

def get? (fields : Fields) (name : String) : Option Datum :=
  Table.get? fields name.toList

/-- The checked value of a field, or a default where the field is missing. -/
def optional {α : Type} (fields : Fields) (name : String) (default : α)
    (check : Datum → Except FieldFault α) : Checked α :=
  match get? fields name with
  | none => .ok default
  | some datum =>
    match check datum with
    | .ok value => .ok value
    | .error fault => Checked.fail name fault

/-- The checked value of a field that must be there. -/
def required {α : Type} (fields : Fields) (name : String)
    (check : Datum → Except FieldFault α) : Checked α :=
  match get? fields name with
  | none => Checked.fail name .missing
  | some datum =>
    match check datum with
    | .ok value => .ok value
    | .error fault => Checked.fail name fault

end Fields

end CurrencyPad
