import CurrencyPad.Json.Basic

/-!
# Log events

What the pad reports while it is used. A notice is made where something happens;
with a time and, if there is one, the session in which it happened it becomes an
event of the log.
-/

namespace CurrencyPad

inductive LogLevel where
  | info
  | warning
  | error
deriving DecidableEq, Repr

namespace LogLevel

def name : LogLevel → String
  | .info => "info"
  | .warning => "warning"
  | .error => "error"

def all : List LogLevel := [.info, .warning, .error]

def ofName? (name : Text) : Option LogLevel :=
  all.find? fun level => level.name.toList == name

end LogLevel

inductive LogTopic where
  | started
  | disposed
  | expressionError
  | converted
  | noConversion
  | rates
  | baseCurrency
deriving DecidableEq, Repr

namespace LogTopic

def name : LogTopic → String
  | .started => "engine_started"
  | .disposed => "engine_disposed"
  | .expressionError => "expression_error"
  | .converted => "currency_converted"
  | .noConversion => "conversion_unavailable"
  | .rates => "rates_received"
  | .baseCurrency => "base_currency_received"

def all : List LogTopic :=
  [.started, .disposed, .expressionError, .converted, .noConversion, .rates,
    .baseCurrency]

def ofName? (name : Text) : Option LogTopic :=
  all.find? fun topic => topic.name.toList == name

end LogTopic

/-- Something that is worth an event. -/
structure Notice where
  level : LogLevel
  topic : LogTopic
  message : Text
  context : List (Text × Json)
  errorCode : Option Text

structure LogEvent where
  schemaVersion : Int
  timestamp : Text
  level : LogLevel
  topic : LogTopic
  context : List (Text × Json)
  message : Text
  errorCode : Option Text

namespace Notice

def info (topic : LogTopic) (message : Text) (context : List (String × Json)) :
    Notice :=
  ⟨.info, topic, message, context.map fun field => (field.1.toList, field.2),
    none⟩

/-- A notice of something that did not work, with a code that tells why. -/
def warning (topic : LogTopic) (message : Text) (context : List (String × Json))
    (code : String) : Notice :=
  ⟨.warning, topic, message, context.map fun field => (field.1.toList, field.2),
    some code.toList⟩

def stamped (notice : Notice) (timestamp : Text) : LogEvent where
  schemaVersion := 1
  timestamp
  level := notice.level
  topic := notice.topic
  context := notice.context
  message := notice.message
  errorCode := notice.errorCode

end Notice

namespace LogEvent

/-- The name under which the context of an event holds its session. -/
def sessionField : Text := "session_id".toList

/-- An event that names its session, unless its context does so already. -/
def inSession (event : LogEvent) (session : Option Text) : LogEvent :=
  match session, Table.get? event.context sessionField with
  | some session, none =>
    { event with
      context := Table.set event.context sessionField (.string session) }
  | _, _ => event

def toJson (event : LogEvent) : Json :=
  .record
    [ ("schema_version", .integer event.schemaVersion),
      ("ts", .string event.timestamp),
      ("level", .literal event.level.name),
      ("event_type", .literal event.topic.name),
      ("context", .object event.context), ("message", .string event.message),
      ("error_code", Json.optionalText event.errorCode) ]

end LogEvent

end CurrencyPad
