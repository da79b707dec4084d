import CurrencyPad.Json.Reader
import CurrencyPad.Text.Blank
import CurrencyPad.Text.Bytes

/-!
# Records of a log file

A log file holds one JSON value a line. Only the end of a long file is read, and
lines that are not JSON are passed over. The records can be narrowed down by
what their fields hold.
-/

namespace CurrencyPad

/-- What a log file is made of. -/
abbrev Bytes := List UInt8

namespace Records

def lineFeed : UInt8 := 10

/-- The end of a file. A file within the limit is read whole. Of a longer one
the last bytes are read; what stands before their first line feed is left out,
because it may be a part of a line. -/
def tail (limit : Nat) (content : Bytes) : Bytes :=
  if content.length ≤ limit then content
  else
    let last := content.drop (content.length - limit)
    match last.dropWhile (· != lineFeed) with
    | [] => last
    | _ :: rest => rest

inductive Fault where
  /-- A record, or its context, is not an object where fields are asked for. -/
  | noFields
  /-- A record holds a whole number with too many digits. -/
  | tooManyDigits (count : Nat)
  /-- The file cannot be read. -/
  | unreadable
deriving DecidableEq, Repr

def Fault.message : Fault → String
  | .noFields => "a record of the log is not an object"
  | .tooManyDigits count => Integer.tooManyDigitsText count
  | .unreadable => "the file cannot be read"

/-- The record that a line holds, if it holds any. -/
def ofLine (line : Text) : Except Fault (Option Json) :=
  match Json.ofText (Text.strip line) with
  | .ok record => .ok (some record)
  | .error .malformed => .ok none
  | .error (.tooManyDigits count) => .error (.tooManyDigits count)

/-- The records of a text, one a line. -/
def ofText (text : Text) : Except Fault (List Json) :=
  (Text.lines text).filterMapM ofLine

/-- The records at the end of a file; the number of bytes that are read must not
be negative. -/
def ofFile (limit : Int) (content : Bytes) : Except Fault (List Json) :=
  if limit < 0 then .error .unreadable
  else ofText (Text.ofBytes (tail limit.toNat content))

def holds (name : String) (value : Text) (fields : List (Text × Json)) : Bool :=
  match Table.get? fields name.toList with
  | some (.string text) => text = value
  | _ => false

def objectHolds (name : String) (value : Text) (record : Json) :
    Except Fault Bool :=
  match record.fields? with
  | some fields => .ok (holds name value fields)
  | none => .error .noFields

def inSession (session : Text) (record : Json) : Except Fault Bool :=
  match record.fields? with
  | some fields =>
    match Table.get? fields "context".toList with
    | none => .ok false
    | some context => objectHolds "session_id" session context
  | none => .error .noFields

/-- The records that satisfy a condition, which an empty text switches off. -/
def narrow (condition : Text → Json → Except Fault Bool) (value : Text)
    (records : List Json) : Except Fault (List Json) :=
  if value.isEmpty then .ok records else records.filterM (condition value)

/-- The first items of a list; a negative limit leaves out as many at the end. -/
def upTo {α : Type} (limit : Int) (items : List α) : List α :=
  if limit < 0 then items.take (items.length - limit.natAbs)
  else items.take limit.toNat

end Records

/-- What is asked of a log. An empty text asks for everything. -/
structure LogQuery where
  level : Text
  topic : Text
  session : Text
  limit : Int

namespace LogQuery

/-- Everything, up to a limit. -/
def all (limit : Int) : LogQuery :=
  ⟨[], [], [], limit⟩

def select (query : LogQuery) (records : List Json) :
    Except Records.Fault (List Json) := do
  let records ← Records.narrow (Records.objectHolds "level") query.level records
  let records ←
    Records.narrow (Records.objectHolds "event_type") query.topic records
  Records.narrow Records.inSession query.session records

/-- The records that match, the latest first, up to the limit. -/
def latest (query : LogQuery) (records : List Json) :
    Except Records.Fault (List Json) := do
  return Records.upTo query.limit (← query.select records).reverse

end LogQuery

end CurrencyPad
