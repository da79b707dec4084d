import CurrencyPad.Proofs.Journal.Records

/-!
# Both accounts of a session

An event that happens in a session is kept twice: in the file for all events,
where its context names the session, and in a file of the session, if the
session's name is fit for one. Each way to read a session back rests on a test
of its own. As long as the contexts name no session by themselves, both ways
tell the same events.
-/

namespace CurrencyPad

namespace Records

end Records

namespace LogEvent

variable {event : LogEvent}

theorem field?_context_ordered
    (distinct : (Json.object event.context).HasDistinctNames) :
    event.toJson.ordered.field? "context" =
      some (Json.object event.context).ordered := by
  have names : (Table.names event.fields).Nodup := by
    cases hasDistinctNames_toJson distinct with
    | object names _ =>
        exact names
  rw [toJson_eq, Json.field?_ordered names]
  rfl

end LogEvent

namespace Journal

def opened (readLimit : Int) : Journal :=
  { empty readLimit with isOpen := true }

def recordAll (journal : Journal) (history : List Entry) : Journal :=
  history.foldl (fun journal entry => journal.record entry.1 entry.2) journal

/-- An entry as it is taken down: its context names the session in which it
happened, if there is one. -/
structure IsAddressed (entry : Entry) : Prop where
  distinct : (Json.object entry.1.context).HasDistinctNames
  named : Table.get? entry.1.context LogEvent.sessionField =
    entry.2.map Json.string

theorem IsAddressed.legible {entry : Entry} (isAddressed : IsAddressed entry)
    (printable : entry.1.toJson.isPrintable = true) :
    entry.1.toJson.Legible :=
  (LogEvent.hasDistinctNames_toJson isAddressed.distinct).legible printable

section Written

variable {readLimit : Int} {entries : List Entry}

end Written

end Journal

end CurrencyPad
