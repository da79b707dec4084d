import CurrencyPad.Binary64.Text
import CurrencyPad.Json.Basic
import CurrencyPad.Text.Quoted

/-!
# Values in messages

Messages show values in a form of their own: texts in single quotes, capital
words for nothing and for the booleans, and doubles as they are printed
elsewhere.
-/

namespace CurrencyPad.Json

mutual

def shown : Json → Text
  | .null => "None".toList
  | .boolean true => "True".toList
  | .boolean false => "False".toList
  | .integer value => Text.withSign (value < 0) (Decimal.digits value.natAbs)
  | .real value => Binary64.text value
  | .string value => Text.quoted value
  | .broken points => Text.quotedPoints points
  | .array items => '[' :: Text.join ", ".toList (shownItems items) ++ [']']
  | .object fields =>
    '\x7b' :: Text.join ", ".toList (shownFields fields) ++ ['\x7d']
  | .brokenObject fields =>
    '\x7b' :: Text.join ", ".toList (shownBroken fields) ++ ['\x7d']

def shownItems : List Json → List Text
  | [] => []
  | item :: rest => shown item :: shownItems rest

def shownFields : List (Text × Json) → List Text
  | [] => []
  | (name, value) :: rest =>
    (Text.quoted name ++ ": ".toList ++ shown value) :: shownFields rest

def shownBroken : List (List Nat × Json) → List Text
  | [] => []
  | (name, value) :: rest =>
    (Text.quotedPoints name ++ ": ".toList ++ shown value) :: shownBroken rest

end

end CurrencyPad.Json
