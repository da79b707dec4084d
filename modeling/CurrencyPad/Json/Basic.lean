import CurrencyPad.Text.Table

/-!
# JSON values

Whole numbers and doubles are kept apart, as their texts are. An object is a
list of fields in which no name occurs twice. A string may hold halves of
characters, which no text does; it is kept as its code points, and so are the
names of an object if one of them is such a string.
-/

namespace CurrencyPad

inductive Json where
  | null
  | boolean (value : Bool)
  | integer (value : Int)
  | real (value : Float)
  | string (value : Text)
  /-- A string with halves of characters, as its code points. -/
  | broken (points : List Nat)
  | array (items : List Json)
  | object (fields : List (Text × Json))
  /-- An object in whose names are halves of characters, with all names as their
  code points. -/
  | brokenObject (fields : List (List Nat × Json))
deriving BEq, Repr, Inhabited

namespace Json

def literal (value : String) : Json :=
  .string value.toList

def ofPoints (points : List Nat) : Json :=
  match Text.ofPoints? points with
  | some value => .string value
  | none => .broken points

def optionalText : Option Text → Json
  | some value => .string value
  | none => .null

def record (fields : List (String × Json)) : Json :=
  .object (fields.map fun field => (field.1.toList, field.2))

def ofFields (fields : List (List Nat × Json)) : Json :=
  if fields.any (·.1.any Text.isHalf) then .brokenObject fields
  else .object (fields.map fun field => (field.1.map Char.ofNat, field.2))

/-- The fields of an object whose names are texts; other values have no fields. -/
def fields? : Json → Option (List (Text × Json))
  | .object fields => some fields
  | .brokenObject fields => some (fields.filterMap fun field =>
    (Text.ofPoints? field.1).map fun name => (name, field.2))
  | _ => none

def field? (name : String) (value : Json) : Option Json :=
  value.fields?.bind fun fields => Table.get? fields name.toList

end Json

end CurrencyPad
