import CurrencyPad.Yaml.Timestamp

/-!
# The types of nodes

Every node of a YAML document has a type. It is given by a tag, or found from
the form of the node: a scalar without quotes has the type that its text spells
under the rules of YAML 1.1, where a whole number is written in base two, eight,
ten, sixteen or sixty, and a power of ten needs a point before it and a sign
after its mark.
-/

namespace CurrencyPad.Yaml

inductive Tag where
  | null
  | boolean
  | integer
  | real
  | string
  | bytes
  | timestamp
  | sequence
  | mapping
  | set
  /-- A sequence of mappings with one entry each. -/
  | pairs
  /-- A key whose value is a mapping with further entries. -/
  | merge
  /-- A key whose value stands for the mapping where a scalar is needed. -/
  | standIn
  | unknown
deriving DecidableEq, Repr

namespace Tag

/-- What the names of the types of YAML start with. -/
def domain : Text := "tag:yaml.org,2002:".toList

def names : List (Text × Tag) :=
  [ ("null", .null), ("bool", .boolean), ("int", .integer), ("float", .real),
    ("str", .string), ("binary", .bytes), ("timestamp", .timestamp),
    ("seq", .sequence), ("map", .mapping), ("set", .set), ("omap", .pairs),
    ("pairs", .pairs), ("merge", .merge),
    ("value", .standIn) ].map fun name : String × Tag =>
      (domain ++ name.1.toList, name.2)

def ofName (name : Text) : Tag :=
  ((names.find? (·.1 == name)).map (·.2)).getD .unknown

/-- Whether a node of the type can hold other nodes. Such a node is no key. -/
def isCollection : Tag → Bool
  | .sequence => true
  | .mapping => true
  | .set => true
  | .pairs => true
  | _ => false

def nullWords : List Text :=
  ["", "~", "null", "Null", "NULL"].map String.toList

def booleanWords : List Text :=
  [ "yes", "Yes", "YES", "true", "True", "TRUE", "on", "On", "ON", "no", "No",
    "NO", "false", "False", "FALSE", "off", "Off", "OFF" ].map String.toList

def infinityWords : List Text :=
  [".inf", ".Inf", ".INF"].map String.toList

/-- The spellings of the double that is no number. -/
def undefinedWords : List Text :=
  [".nan", ".NaN", ".NAN"].map String.toList

def signWords : List Text :=
  ["!", "&", "*"].map String.toList

def isDigitOrUnderscore (c : Char) : Bool :=
  Text.isAsciiDigit c || c == '_'

/-- Whether a text starts with a digit from `least` on and goes on with digits
and underscores. -/
def isRow (least : Char) (text : Text) : Bool :=
  text.head?.any (fun c => least ≤ c && c ≤ '9') && text.all isDigitOrUnderscore

/-- Whether a text is a number from 0 to 59 of one or two digits. -/
def isSixtieth (text : Text) : Bool :=
  match text with
  | [a] => Text.isAsciiDigit a
  | [a, b] => '0' ≤ a && a ≤ '5' && Text.isAsciiDigit b
  | _ => false

/-- Whether a text is a row of digits and numbers from 0 to 59, at least one,
after colons. -/
def isSexagesimal (least : Char) (text : Text) : Bool :=
  match Text.splitAt ':' text with
  | first :: second :: rest =>
    isRow least first && (second :: rest).all isSixtieth
  | _ => false

/-- Whether a text has the form of a whole number without its sign. -/
def isUnsignedInteger (text : Text) : Bool :=
  match text with
  | '0' :: 'b' :: c :: digits =>
    (c :: digits).all fun c => c == '0' || c == '1' || c == '_'
  | '0' :: 'x' :: c :: digits =>
    (c :: digits).all fun c =>
      Text.isAsciiDigit c || ('a' ≤ c && c ≤ 'f') || ('A' ≤ c && c ≤ 'F') ||
        c == '_'
  | '0' :: digits => digits.all fun c => ('0' ≤ c && c ≤ '7') || c == '_'
  | _ => isRow '1' text || isSexagesimal '1' text

def isInteger (text : Text) : Bool :=
  isUnsignedInteger (Decimal.splitSign text).2

/-- Whether a text is empty or a power of ten: a mark, a sign and digits. -/
def isPower (text : Text) : Bool :=
  match text with
  | [] => true
  | mark :: sign :: digits =>
    (mark == 'e' || mark == 'E') && (sign == '+' || sign == '-') &&
      !digits.isEmpty &&
      digits.all Text.isAsciiDigit
  | _ => false

/-- Whether a text has the form of a double without its sign that starts with a
digit. -/
def isUnsignedReal (text : Text) : Bool :=
  let whole := text.takeWhile (· != '.')
  match text.dropWhile (· != '.') with
  | _ :: rest =>
    let places := rest.takeWhile isDigitOrUnderscore
    (isRow '0' whole && isPower (rest.drop places.length)) ||
      (isSexagesimal '0' whole && places.length == rest.length)
  | [] => false

/-- Whether a text is a point with a digit and places after it, and perhaps a
power of ten. -/
def isFraction (text : Text) : Bool :=
  match text with
  | '.' :: rest =>
    let places := rest.takeWhile isDigitOrUnderscore
    isRow '0' places && isPower (rest.drop places.length)
  | _ => false

/-- Whether a text has the form of a double. A sign may stand only before a
digit or before the word for infinity. -/
def isReal (text : Text) : Bool :=
  let body := (Decimal.splitSign text).2
  isUnsignedReal body || infinityWords.contains body || isFraction text ||
    undefinedWords.contains text

def dropLineFeed (text : Text) : Text :=
  if text.getLast? = some '\n' then text.dropLast else text

/-- The type that the text of a scalar spells; a line feed at its end does not
count. -/
def ofText (text : Text) : Tag :=
  let line := dropLineFeed text
  if text = ['\n'] then .string
  else if nullWords.contains line then .null
  else if booleanWords.contains line then .boolean
  else if isReal line then .real
  else if isInteger line then .integer
  else if Timestamp.isPlain line then .timestamp
  else if line = ['<', '<'] then .merge
  else if line = ['='] then .standIn
  else if signWords.contains line then .unknown
  else .string

end Tag

end CurrencyPad.Yaml
