import CurrencyPad.Journal.Event
import CurrencyPad.Text.Quoted
import CurrencyPad.Validation.Datum

/-!
# Checking log events

An event that comes from outside is checked field by field. Level and topic must
be there and be known; everything else has a default.
-/

namespace CurrencyPad

namespace LogTopic

structure Unknown where
  name : Text
deriving DecidableEq, Repr

def Unknown.message (error : Unknown) : String :=
  String.ofList (Text.quoted error.name) ++ " is not a valid EventType"

def ofName (name : Text) : Except Unknown LogTopic :=
  match ofName? name with
  | some topic => .ok topic
  | none => .error ⟨name⟩

end LogTopic

namespace LogEvent

/-- A name that a field holds, as one of several known ones. -/
def nameField {α : Type} (ofName? : Text → Option α) (datum : Datum) :
    Except FieldFault α :=
  match datum with
  | .string name =>
    match ofName? name with
    | some value => .ok value
    | none => .error .enumeration
  | _ => .error .enumeration

/-- A field of a context. Its name must be a text. -/
def contextEntry (field : List Nat × Json) : Checked (Text × Json) :=
  match Text.ofPoints? field.1 with
  | some name => .ok (name, field.2)
  | none =>
    .error [⟨["context".toList, Text.ofPoints field.1, "[key]".toList],
      .stringUnicode⟩]

/-- The context of an event; without one it is empty. -/
def contextField (record : List (Text × Json)) : Checked (List (Text × Json)) :=
  match Table.get? record "context".toList with
  | none => .ok []
  | some (.object context) => .ok context
  | some (.brokenObject context) => Checked.collect (context.map contextEntry)
  | some _ => Checked.fail "context" .dictType

/-- The event that a record describes. Without a time it happens now. -/
def ofRecord (now : Text) (record : List (Text × Json)) :
    Except ValidationError LogEvent :=
  let fields := Fields.ofRecord record
  let checked : Checked _ := .ok LogEvent.mk
  let checked :=
    checked.apply (fields.optional "schema_version" 1 Datum.asInteger)
  let checked := checked.apply (fields.optional "ts" now Datum.asText)
  let checked :=
    checked.apply (fields.required "level" (nameField LogLevel.ofName?))
  let checked :=
    checked.apply (fields.required "event_type" (nameField LogTopic.ofName?))
  let checked := checked.apply (contextField record)
  let checked := checked.apply (fields.optional "message" [] Datum.asText)
  Checked.report "PadEvent"
    (checked.apply (fields.optional "error_code" none Datum.asOptionalText))

end LogEvent

end CurrencyPad
