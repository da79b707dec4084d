import CurrencyPad.Binary64.Shortest
import CurrencyPad.Decimal.Basic
import CurrencyPad.Json.Shown
import CurrencyPad.Text.Bytes
import CurrencyPad.Validation.Datum
import CurrencyPad.Yaml.Timestamp

/-!
# YAML values

The values that a YAML document can hold. Keys of a mapping may be of any kind
but collections. Two keys are the same where they are equal as values: a number
equals itself in whatever form it is written, and true and false equal one and
zero.
-/

namespace CurrencyPad

inductive Yaml where
  | null
  | boolean (value : Bool)
  | integer (value : Int)
  | real (value : Float)
  | string (value : Text)
  /-- A string with code points that are halves of characters. -/
  | broken (points : List Nat)
  | bytes (content : List UInt8)
  | timestamp (value : Yaml.Timestamp)
  /-- An entry of an ordered mapping. -/
  | pair (key value : Yaml)
  | sequence (items : List Yaml)
  | set (items : List Yaml)
  | mapping (entries : List (Yaml × Yaml))
deriving Repr, Inhabited

namespace Yaml

def ofPoints (points : List Nat) : Yaml :=
  if points.any Text.isHalf then .broken points
  else .string (points.map Char.ofNat)

def isKey : Yaml → Bool
  | .pair key value => key.isKey && value.isKey
  | .sequence _ => false
  | .set _ => false
  | .mapping _ => false
  | _ => true

/-- The number that a value is, if it is one. -/
def number? : Yaml → Option ExtendedDecimal
  | .boolean value => some (.finite ⟨false, if value then 1 else 0, 0⟩)
  | .integer value => some (.finite ⟨value < 0, value.natAbs, 0⟩)
  | .real value =>
    some (match Binary64.parts? value with
      | some parts => .finite parts.exactDecimal
      | none => Binary64.toDecimal value)
  | _ => none

/-- A value within the values of its kind that have an order: the kind, and
numbers that are compared one after another. Numbers are left out. -/
def orderKey? : Yaml → Option (Nat × List Int)
  | .string value => some (0, value.map fun c => (c.toNat : Int))
  | .broken points => some (0, points.map Int.ofNat)
  | .bytes content => some (1, content.map fun byte => (byte.toNat : Int))
  | .timestamp (.date date) => some (2, [date.dayNumber])
  | .timestamp (.moment moment) =>
    some (if moment.offset.isNone then 3 else 4, [moment.instant])
  | _ => none

def sameKey : Yaml → Yaml → Bool
  | .null, .null => true
  | .pair key value, .pair otherKey otherValue =>
    key.sameKey otherKey && value.sameKey otherValue
  | left, right =>
    match left.number?, right.number? with
    | some .undefined, some .undefined => true
    | some left, some right => left.same right
    | none, none =>
      match left.orderKey?, right.orderKey? with
      | some left, some right => left == right
      | _, _ => false
    | _, _ => false

/-- Entries in which a key has a value. The entry of that key is replaced where
it stands; otherwise a new entry is added at the end. -/
def setEntry (entries : List (Yaml × Yaml)) (key value : Yaml) :
    List (Yaml × Yaml) :=
  match entries with
  | [] => [(key, value)]
  | (other, old) :: rest =>
    if other.sameKey key then (other, value) :: rest
    else (other, old) :: setEntry rest key value

def entry? (entries : List (Yaml × Yaml)) (name : String) : Option Yaml :=
  (entries.find? (·.1.sameKey (.string name.toList))).map (·.2)

/-- Keys in order. Keys of different kinds have no order among them, but numbers
are of one kind. -/
def sortKeys? (keys : List Yaml) : Option (List Yaml) :=
  match keys, keys.mapM number?, keys.mapM orderKey? with
  | [key], _, _ => some [key]
  | _, some numbers, _ =>
    some
      (((keys.zip numbers).mergeSort fun left right => left.2.le right.2).map
        (·.1))
  | _, none, some orders =>
    if orders.all fun order => orders.head?.any (·.1 == order.1) then
      some
        (((keys.zip orders).mergeSort fun left right =>
          Text.listLe left.2.2 right.2.2).map (·.1))
    else none
  | _, none, none => none

def datum : Yaml → Datum
  | .null => .null
  | .boolean value => .boolean value
  | .integer value => .integer value
  | .real value => .real value
  | .string value => .string value
  | .broken _ => .brokenString
  | .bytes content => .bytes content
  | _ => .compound

def quotedByte (quote : Char) (byte : UInt8) : Text :=
  if 0x80 ≤ byte then '\\' :: 'x' :: Text.hexDigits 2 byte.toNat
  else Text.quotedChar quote (Char.ofNat byte.toNat)

def shownBytes (content : List UInt8) : Text :=
  let quote := Text.quoteFor (content.map fun byte => Char.ofNat byte.toNat)
  'b' :: quote :: content.flatMap (quotedByte quote) ++ [quote]

def shownKey : Yaml → Text
  | .boolean value => (Json.boolean value).shown
  | .integer value => (Json.integer value).shown
  | .real value => (Json.real value).shown
  | .string value => Text.quoted value
  | .broken points => Text.quotedPoints points
  | .bytes content => shownBytes content
  | .timestamp value => value.shown
  | .pair key value =>
    '(' :: key.shownKey ++ ", ".toList ++ value.shownKey ++ [')']
  | _ => Json.null.shown

def shownKeys (keys : List Yaml) : Text :=
  '[' :: Text.join ", ".toList (keys.map shownKey) ++ [']']

/-- The name by which the place of a fault calls a key. -/
def keyName : Yaml → Text
  | .string value => value
  | .broken points => Text.ofPoints points
  | .boolean value => if value then ['1'] else ['0']
  | key => key.shownKey

/-- Whether a value stands for nothing: null, false, zero, an empty text or an
empty collection. -/
def isFalsy : Yaml → Bool
  | .null => true
  | .boolean value => !value
  | .integer value => value == 0
  | .real value => value == 0
  | .string value => value.isEmpty
  | .broken points => points.isEmpty
  | .bytes content => content.isEmpty
  | .timestamp _ => false
  | .pair _ _ => false
  | .sequence items => items.isEmpty
  | .set items => items.isEmpty
  | .mapping entries => entries.isEmpty

end Yaml

end CurrencyPad
