import CurrencyPad.Command.Words
import CurrencyPad.Journal.Event

/-!
# Commands

What the program can be asked to do, and how the words of a command line say it.
-/

namespace CurrencyPad

inductive Command where
  /-- Evaluates an expression. -/
  | evaluate (expression : Text)
  /-- Writes an amount, possibly in short form. -/
  | format (amount : Float) (currency : Text) (short : Bool)
  /-- Converts an amount with the rates of a file. -/
  | convert (amount : Float) (source target rates : Text) (short : Bool)
  /-- Replays keys on the pad. -/
  | session (keys : List Text) (rates base : Text) (currency : Option Text)
    (initial : Float) (name : Option Text)
  /-- Shows the events of a log. -/
  | events (directory level topic session : Text) (limit : Int)

namespace Command

inductive Name where
  | evaluate
  | format
  | convert
  | session
  | events
deriving DecidableEq, Repr

namespace Name

def all : List Name := [.evaluate, .format, .convert, .session, .events]

def word : Name → String
  | .evaluate => "eval"
  | .format => "format"
  | .convert => "convert"
  | .session => "session"
  | .events => "events"

def ofWord? (word : Text) : Option Name :=
  all.find? fun name => name.word.toList == word

def unknown (word : Text) : UsageError :=
  .noSuchCommand word (Text.closest (all.map (·.word.toList)) word)

/-- The words that follow the name of a command, as its help shows them. -/
def usage : Name → String
  | .evaluate => "EXPRESSION"
  | .format => "[--short] AMOUNT CURRENCY"
  | .convert => "--rates PATH [--short] AMOUNT FROM_CURRENCY TO_CURRENCY"
  | .session =>
    "--rates PATH --base TEXT [--currency TEXT] [--initial FLOAT] " ++
      "[--session-id TEXT] [KEYS]..."
  | .events =>
    "[--level LEVEL] [--type TEXT] [--session TEXT] [--limit INTEGER] LOG_DIR"

def options (name : Name) : List OptionForm :=
  ⟨"--help", false⟩ ::
    match name with
    | .evaluate => []
    | .format => [⟨"--short", false⟩]
    | .convert => [⟨"--rates", true⟩, ⟨"--short", false⟩]
    | .session =>
      [ ⟨"--rates", true⟩, ⟨"--base", true⟩, ⟨"--currency", true⟩,
        ⟨"--initial", true⟩, ⟨"--session-id", true⟩ ]
    | .events =>
      [⟨"--level", true⟩, ⟨"--type", true⟩, ⟨"--session", true⟩,
        ⟨"--limit", true⟩]

end Name

/-- The number of events that are shown where nothing else is said. -/
def defaultLimit : Int := 100

/-- Reads the parameters of a command. Of the words those that are paths of
something are known. -/
def ofWords (present : List Text) (words : Words) : Name → Parameter Command
  | .evaluate =>
    Parameter.closed words 1 <|
      (Parameter.argument words 0 "EXPRESSION" Parameter.text).map .evaluate
  | .format =>
    let read : Parameter (Float → Text → Command) := .ok fun amount currency =>
      .format amount currency (words.has "--short")
    let read := read.apply (.argument words 0 "AMOUNT" Parameter.number)
    Parameter.closed words 2 <|
      read.apply (.argument words 1 "CURRENCY" Parameter.text)
  | .convert =>
    let read : Parameter (Float → Text → Text → Text → Command) :=
      .ok fun amount source target rates =>
        .convert amount source target rates (words.has "--short")
    let read := read.apply (.argument words 0 "AMOUNT" Parameter.number)
    let read := read.apply (.argument words 1 "FROM_CURRENCY" Parameter.text)
    let read := read.apply (.argument words 2 "TO_CURRENCY" Parameter.text)
    Parameter.closed words 3 <|
      read.apply (.needed words 0 "--rates" (Parameter.path present))
  | .session =>
    let read : Parameter _ := .ok (session words.arguments)
    let read := read.apply (.needed words 0 "--rates" (Parameter.path present))
    let read := read.apply (.needed words 1 "--base" Parameter.text)
    let read := read.apply (.ok (words.value? "--currency"))
    let read := read.apply (.option words "--initial" 0 Parameter.number)
    read.apply (.ok (words.value? "--session-id"))
  | .events =>
    let levels := LogLevel.all.map LogLevel.name
    let read : Parameter _ := .ok events
    let read := read.apply (.argument words 0 "LOG_DIR" (Parameter.path present))
    let read := read.apply (.option words "--level" [] (Parameter.choice levels))
    let read := read.apply (.option words "--type" [] Parameter.text)
    let read := read.apply (.option words "--session" [] Parameter.text)
    Parameter.closed words 1 <|
      read.apply (.option words "--limit" defaultLimit Parameter.wholeNumber)

end Command

end CurrencyPad
