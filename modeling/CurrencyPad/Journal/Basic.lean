import CurrencyPad.Journal.Event
import CurrencyPad.Journal.Records
import CurrencyPad.Json.Printer
import CurrencyPad.Text.Path

/-!
# Journals

A journal keeps every event as one line of JSON in a file for all events, and
once more in a file of its session where the session's name is fit to be a file
name. A session's own file is read from its beginning; questions about the file
for all events are answered with the latest event first.
-/

namespace CurrencyPad

/-- The files of a log. -/
structure Journal where
  /-- What the files hold, by their paths below the directory of the journal. -/
  files : Table Bytes
  /-- Whether events that happen are written. -/
  isOpen : Bool
  /-- The greatest number of bytes that are read of a file. -/
  readLimit : Int

namespace Journal

/-- The number of bytes that are read of a file where nothing else is said: two
megabytes. -/
def defaultReadLimit : Int := 2 * 1024 * 1024

/-- The greatest number of events that one question is answered with. -/
def answerLimit : Int := 2000

def sessionDirectory : Text := "sessions".toList

def mainFile : Text := "events.ndjson".toList

/-- A character that may stand in the file name of a session. -/
def isNameChar (c : Char) : Bool :=
  c.isAlphanum || c = '_' || c = '-'

/-- A name that is fit to be a file name: letters, digits, `_` and `-` of ASCII,
and possibly a line feed at the end. -/
def isFileName (session : Text) : Bool :=
  let body := if session.getLast? = some '\n' then session.dropLast else session
  !body.isEmpty && body.all isNameChar

def sessionFile (session : Text) : Text :=
  sessionDirectory ++ '/' :: session ++ ".ndjson".toList

/-- The files that get an event of a session. -/
def filesFor (session : Option Text) : List Text :=
  match session with
  | some name =>
    if isFileName name then [mainFile, sessionFile name] else [mainFile]
  | none => [mainFile]

def lineOf (event : LogEvent) : Text :=
  event.toJson.toLine ++ ['\n']

def empty (readLimit : Int) : Journal :=
  ⟨[], false, readLimit⟩

/-- What a file holds; a missing file holds nothing. -/
def contentOf (journal : Journal) (path : Text) : Bytes :=
  (journal.files.get? path).getD []

def append (journal : Journal) (path : Text) (content : Bytes) : Journal :=
  { journal with
    files := journal.files.insert path (journal.contentOf path ++ content) }

/-- Adds bytes to the end of several files, up to the first that cannot be
written. The answer tells whether all of them were written. -/
def appendAll (content : Bytes) (journal : Journal) : List Text → Bool × Journal
  | [] => (true, journal)
  | path :: rest =>
    if Path.isStorable path then
      appendAll content (journal.append path content) rest
    else (false, journal)

/-- Writes an event, unless its record is not printable. The answer tells
whether it is written to all of its files. -/
def write (journal : Journal) (event : LogEvent) (session : Option Text) :
    Bool × Journal :=
  if event.toJson.isPrintable then
    appendAll (Text.toBytes (lineOf event)) journal (filesFor session)
  else (false, journal)

/-- Writes an event that happens in a session, which the event is made to name.
A journal that is not open does not change. -/
def record (journal : Journal) (event : LogEvent) (session : Option Text) :
    Journal :=
  if journal.isOpen then (journal.write (event.inSession session) session).2
  else journal

/-- The records of a file; a missing file holds none. -/
def recordsOf (journal : Journal) (path : Text) :
    Except Records.Fault (List Json) :=
  if !Path.isStorable path then .error .unreadable
  else
    match journal.files.get? path with
    | some content => Records.ofFile journal.readLimit content
    | none => .ok []

/-- The events of all sessions that answer a question, the latest first. -/
def events (journal : Journal) (query : LogQuery) :
    Except Records.Fault (List Json) := do
  let records ← journal.recordsOf mainFile
  LogQuery.latest { query with limit := min query.limit answerLimit } records

/-- The events of a session in the order in which they were written. -/
def sessionEvents (journal : Journal) (session : Text) :
    Except Records.Fault (List Json) :=
  if isFileName session then journal.recordsOf (sessionFile session) else .ok []

/-- The paths of the files and of the directory of sessions, in order. -/
def paths (journal : Journal) : List Text :=
  (sessionDirectory :: journal.files.names).mergeSort Text.le

end Journal

end CurrencyPad
