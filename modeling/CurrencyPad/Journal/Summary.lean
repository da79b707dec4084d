import CurrencyPad.Journal.Records
import CurrencyPad.Json.Shown
import CurrencyPad.Text.UpperCase

/-!
# Summaries of records

A record of a log is summed up in one line: its time, level, topic and message,
and its error code if it has one. Fields that are missing are left empty.
-/

namespace CurrencyPad

namespace Json

/-- A value that stands for nothing: null, false, zero, or something empty. -/
def isVoid : Json → Bool
  | .null => true
  | .boolean value => !value
  | .integer value => value = 0
  | .real value => value == 0
  | .string value => value.isEmpty
  | .broken points => points.isEmpty
  | .array items => items.isEmpty
  | .object fields => fields.isEmpty
  | .brokenObject fields => fields.isEmpty

/-- A value inside a text. A string stands for itself. -/
def inText : Json → Text
  | .string value => value
  | .broken points => Text.ofPoints points
  | other => shown other

end Json

namespace Records

def levelWidth : Nat := 7

def levelText (level : Text) : Text :=
  let capital := Text.upperCase level
  capital ++ List.replicate (levelWidth - capital.length) ' '

def fieldOf (fields : List (Text × Json)) (name : String) : Json :=
  (Table.get? fields name.toList).getD (.string [])

def codeText (fields : List (Text × Json)) : Text :=
  match Table.get? fields "error_code".toList with
  | some code => if code.isVoid then [] else "  (".toList ++ code.inText ++ [')']
  | none => []

/-- The line for a record. The level must be a text. -/
def summary (record : Json) : Except Fault Text :=
  match record.fields? with
  | some fields =>
    match fieldOf fields "level" with
    | .string level =>
      .ok ('[' :: (fieldOf fields "ts").inText ++ "] ".toList ++
        levelText level ++ ' ' :: (fieldOf fields "event_type").inText ++
        ": ".toList ++ (fieldOf fields "message").inText ++ codeText fields)
    | _ => .error .noFields
  | none => .error .noFields

def summaries (records : List Json) : Except Fault Text := do
  if records.isEmpty then return "No events found.\n".toList
  let lines ← records.mapM summary
  return lines.flatMap fun line => line ++ ['\n']

end Records

end CurrencyPad
