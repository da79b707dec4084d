import CurrencyPad.Journal.Event
import CurrencyPad.Pad.Display
import CurrencyPad.Pad.Task
import CurrencyPad.Signal.Cell

/-!
# The engine of the pad

The engine owns the expression, the selected currency and two flags, and joins
them with signals of rates and of the base currency into the display that it
publishes. What one event changes is published at once, when the event is done.
Only a display that differs from the last one is published.
-/

namespace CurrencyPad

/-- Who is told of changes of the rates or of the base currency. -/
inductive EngineListener where
  /-- The event log. -/
  | log
  /-- The display. -/
  | display
  /-- Anyone outside the engine. -/
  | outside (number : Nat)
deriving DecidableEq, Repr

/-- The signal of rates, with the tasks that wait for the first ones. It may
tell that there are none. -/
abbrev RatesCell := Cell (Option Snapshot) EngineListener TaskId

/-- The signal of the base currency. It may tell that there is none. -/
abbrev BaseCell := Cell (Option Text) EngineListener TaskId

structure Engine where
  config : Config
  expression : Text
  currency : Text
  showError : Bool
  /-- Whether the next digit replaces the expression, which was filled in
  beforehand. -/
  overrideInitial : Bool
  rates : RatesCell
  base : BaseCell
  started : Bool
  disposed : Bool
  /-- Whether the display listens to its sources. -/
  attached : Bool
  /-- What the display has heard of its sources. -/
  heard : DisplaySources
  /-- Whether the display heard something since it was computed. -/
  stale : Bool
  published : Option Display
  /-- The number of listeners that refuse every display. -/
  refusing : Nat
  submissions : List Submission
  conversions : List PendingConversion
  /-- All displays published so far, the latest first. -/
  displays : List Display
  /-- All notices so far, the latest first. -/
  notices : List Notice
  /-- The tasks that ended, the latest first. -/
  finished : List (TaskId × TaskOutcome)

namespace Engine

/-- The engine after a step, and why the step failed if it did. -/
abbrev Step := Engine × Option EngineFailure

/-- A new engine, which is not started, with what its signals tell already. -/
def new (config : Config) (rates : Option (Option Snapshot))
    (base : Option (Option Text)) : Engine where
  config
  expression := []
  currency := []
  showError := false
  overrideInitial := false
  rates := .new rates
  base := .new base
  started := false
  disposed := false
  attached := false
  heard := ⟨[], [], false, none, none⟩
  stale := false
  published := none
  refusing := 0
  submissions := []
  conversions := []
  displays := []
  notices := []
  finished := []

/-- What the display is to be made of now. -/
def sources (engine : Engine) : DisplaySources where
  expression := engine.expression
  currency := engine.currency
  showError := engine.showError
  rates := engine.rates.value.join
  base := engine.base.value.join

def ok (engine : Engine) : Step :=
  (engine, none)

def andThen (step : Step) (next : Engine → Step) : Step :=
  match step with
  | (engine, none) => next engine
  | (engine, some failure) => (engine, some failure)

def notice (engine : Engine) (notice : Notice) : Engine :=
  { engine with notices := notice :: engine.notices }

def finish (engine : Engine) (task : TaskId) (outcome : TaskOutcome) : Engine :=
  { engine with finished := (task, outcome) :: engine.finished }

def finishWith (task : TaskId) (step : Step) : Engine :=
  step.1.finish task (.ofFailure step.2)

/-- Tells the display of a change of a source. -/
def hear (engine : Engine) (change : DisplaySources → DisplaySources) : Engine :=
  if engine.attached then
    { engine with heard := change engine.heard, stale := true }
  else engine

/-- Computes the display of what it heard and publishes it if it is new. -/
def publish (engine : Engine) : Step :=
  let display := Display.derive engine.config engine.heard
  let engine := { engine with stale := false }
  if engine.published.any (· == display) then engine.ok
  else
    let engine :=
      { engine with
        published := some display, displays := display :: engine.displays }
    if engine.refusing = 0 then engine.ok else (engine, some .listener)

/-- Ends a group of changes: the display is computed if it heard of one. -/
def release (engine : Engine) : Step :=
  if engine.stale then engine.publish else engine.ok

end Engine

end CurrencyPad
