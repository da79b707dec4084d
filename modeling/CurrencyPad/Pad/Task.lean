import CurrencyPad.Exchange.Snapshot
import CurrencyPad.Pad.Event

/-!
# Tasks

An event that is handed to the engine is a task. It waits for its turn, and a
change of currency may wait once more for rates. A task ends well, with a
failure, or because it is cancelled.
-/

namespace CurrencyPad

abbrev TaskId := Nat

inductive EngineFailure where
  | disposed
  /-- A listener of the display refuses it. -/
  | listener
  /-- The event log is told that there are no rates any more, which it cannot
  record. -/
  | noRates
deriving DecidableEq, Repr

namespace EngineFailure

def message : EngineFailure → String
  | .disposed => "engine has been disposed"
  | .listener => "listener failed"
  | .noRates => "there are no rates"

end EngineFailure

inductive TaskOutcome where
  | done
  | cancelled
  | failed (failure : EngineFailure)
deriving DecidableEq, Repr

namespace TaskOutcome

/-- The outcome of a task that fails or does not. -/
def ofFailure : Option EngineFailure → TaskOutcome
  | none => .done
  | some failure => .failed failure

end TaskOutcome

/-- How far the reading of rates for a conversion has come. -/
inductive RateRead where
  | requested
  | waiting
  /-- The signal told its rates, or that there are none. -/
  | received (rates : Option Snapshot)
  /-- The engine was disposed. -/
  | abandoned
  | cancelled

/-- A change of currency that waits for rates. The amount is the one entered
when it began. -/
structure PendingConversion where
  task : TaskId
  source : Text
  target : Text
  amount : Binary64.Finite
  read : RateRead

namespace PendingConversion

def abandon (conversion : PendingConversion) : PendingConversion :=
  match conversion.read with
  | .cancelled => conversion
  | _ => { conversion with read := .abandoned }

def receive (rates : Option Snapshot) (waiters : List TaskId)
    (conversion : PendingConversion) : PendingConversion :=
  match conversion.read with
  | .waiting =>
    if waiters.contains conversion.task then
      { conversion with read := .received rates }
    else conversion
  | _ => conversion

def cancel (conversion : PendingConversion) : PendingConversion :=
  match conversion.read with
  | .abandoned => conversion
  | _ => { conversion with read := .cancelled }

end PendingConversion

/-- An event that is handed in but not begun. -/
structure Submission where
  task : TaskId
  event : Event
  cancelled : Bool

namespace Submission

def cancel (submission : Submission) : Submission :=
  { submission with cancelled := true }

end Submission

end CurrencyPad
