import CurrencyPad.Text.Integer
import CurrencyPad.Text.Quoted
import CurrencyPad.Yaml.Timestamp

/-!
# Errors in YAML

A text may be no YAML document, or hold a scalar that does not spell a value of
its type.
-/

namespace CurrencyPad

inductive YamlError where
  /-- The text is no document, or there is something in it that has no value. -/
  | malformed
  /-- An escape names a code point after the last one. -/
  | noCodePoint
  /-- An escape names a code point that is far too great. -/
  | codeTooLarge
  /-- A scalar is no whole number in the base that it starts with. -/
  | notAnInteger (base : Nat) (text : Text)
  | tooManyDigits (count : Nat)
  /-- A scalar is no double. -/
  | notAReal (text : Text)
  /-- A double in base sixty has too many parts. -/
  | realTooLarge
  /-- A number has no digits at all. -/
  | emptyNumber
  | notABoolean (text : Text)
  /-- A scalar has not the form of a timestamp. -/
  | notATimestamp
  /-- A collection is to be a timestamp. -/
  | collectionAsTimestamp
  /-- A scalar has the form of a timestamp, but there is no such time. -/
  | noSuchTime (fault : Yaml.TimestampFault)
deriving DecidableEq, Repr

namespace YamlError

/-- The longest part of a scalar that a message quotes. -/
def quoteLimit : Nat := 200

def message : YamlError → String
  | .malformed => "the text is no YAML document"
  | .noCodePoint => "chr() arg not in range(0x110000)"
  | .codeTooLarge => "the number of a code point is too large"
  | .notAnInteger base text =>
    "invalid literal for int() with base " ++ toString base ++ ": " ++
      String.ofList ((Text.quoted text).take quoteLimit)
  | .tooManyDigits count => Integer.tooManyDigitsText count
  | .notAReal text =>
    "could not convert string to float: " ++ String.ofList (Text.quoted text)
  | .realTooLarge => "int too large to convert to float"
  | .emptyNumber => "string index out of range"
  | .notABoolean text => String.ofList (Text.quoted text)
  | .notATimestamp => "the scalar is no timestamp"
  | .collectionAsTimestamp => "a collection is no timestamp"
  | .noSuchTime fault => fault.message

/-- Whether the text is a document, but a scalar in it has no value of its
type. -/
def isAboutValue : YamlError → Bool
  | .noCodePoint => true
  | .notAnInteger _ _ => true
  | .tooManyDigits _ => true
  | .notAReal _ => true
  | .noSuchTime _ => true
  | _ => false

end YamlError

end CurrencyPad
