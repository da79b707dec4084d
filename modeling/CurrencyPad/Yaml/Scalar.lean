import CurrencyPad.Binary64.Text
import CurrencyPad.Text.Base64
import CurrencyPad.Yaml.Basic
import CurrencyPad.Yaml.Error
import CurrencyPad.Yaml.Tag

/-!
# The values of scalars

A scalar has the value that its text spells as a value of its type. The type may
have been given to it, so that its text need not spell one.
-/

namespace CurrencyPad.Yaml.Scalar

def dropUnderscores (text : Text) : Text :=
  text.filter (· != '_')

def integerIn (base : Nat) (text : Text) : Except YamlError Int :=
  (Integer.read base text).mapError fun fault =>
    match fault with
    | .malformed => .notAnInteger base text
    | .tooManyDigits count => .tooManyDigits count

def unsignedInteger (text : Text) : Except YamlError Int :=
  match text with
  | [] => .error .emptyNumber
  | ['0'] => .ok 0
  | '0' :: 'b' :: digits => integerIn 2 digits
  | '0' :: 'x' :: digits => integerIn 16 digits
  | '0' :: _ => integerIn 8 text
  | _ =>
    if text.contains ':' then do
      let parts ← (Text.splitAt ':' text).mapM (integerIn 10)
      return parts.foldl (fun value part => 60 * value + part) 0
    else integerIn 10 text

def integer (text : Text) : Except YamlError Int :=
  let (negative, body) := Decimal.splitSign (dropUnderscores text)
  (unsignedInteger body).map fun value => if negative then -value else value

def decimal (text : Text) : Except YamlError Float :=
  match Binary64.read? text with
  | some value => .ok value
  | none => .error (.notAReal text)

/-- The sum of parts in base sixty, the last of which comes first, with a sum
before them. -/
def sexagesimal (unit : Nat) (sum : Float) : List Float → Except YamlError Float
  | [] => .ok sum
  | part :: rest =>
    let scale := Binary64.ofDecimal ⟨false, unit, 0⟩
    if scale.isFinite then sexagesimal (60 * unit) (sum + part * scale) rest
    else .error .realTooLarge

/-- A double without its sign, in small letters. -/
def unsignedReal (text : Text) : Except YamlError Float :=
  if text = ".inf".toList then .ok (Binary64.infinity false)
  else if text = ".nan".toList then .ok (0.0 / 0.0)
  else if text.contains ':' then do
    let parts ← (Text.splitAt ':' text).mapM decimal
    sexagesimal 1 0 parts.reverse
  else decimal text

def real (text : Text) : Except YamlError Float :=
  let row := Decimal.smallLetters (dropUnderscores text)
  let (negative, body) := Decimal.splitSign row
  if row.isEmpty then .error .emptyNumber
  else (unsignedReal body).map fun value => if negative then -value else value

def boolean (text : Text) : Except YamlError Bool :=
  let word := Decimal.smallLetters text
  if ["yes", "true", "on"].map String.toList |>.contains word then .ok true
  else if ["no", "false", "off"].map String.toList |>.contains word then .ok false
  else .error (.notABoolean word)

def bytes (text : Text) : Except YamlError (List UInt8) :=
  if text.all (·.toNat < 0x80) then
    match Text.Base64.decode? text with
    | some content => .ok content
    | none => .error .malformed
  else .error .malformed

def timestamp (text : Text) : Except YamlError Timestamp :=
  match Timestamp.read? (Tag.dropLineFeed text) with
  | some value => value.check.mapError .noSuchTime
  | none => .error .notATimestamp

/-- The value that a text spells as a value of a type. -/
def ofText (tag : Tag) (text : Text) : Except YamlError Yaml :=
  match tag with
  | .null => .ok .null
  | .boolean => (boolean text).map .boolean
  | .integer => (integer text).map .integer
  | .real => (real text).map .real
  | .string => .ok (.string text)
  | .bytes => (bytes text).map .bytes
  | .timestamp => (timestamp text).map .timestamp
  | _ => .error .malformed

/-- The value of a type that code points spell. -/
def value (tag : Tag) (points : List Nat) : Except YamlError Yaml :=
  match tag, ofPoints points with
  | _, .string text => ofText tag text
  | .string, other => .ok other
  | .null, _ => .ok .null
  | _, _ => .error .malformed

end CurrencyPad.Yaml.Scalar
