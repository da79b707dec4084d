import CurrencyPad.Pad.Engine.Change
import CurrencyPad.Pad.Engine.Life

/-!
# Running tasks

Events are handed in and run in the order in which they came. A change of
currency that needs rates lets later events pass while it waits; the amount that
it converts is the one entered before.

A session starts with an amount and goes on with events, each of which is run to
its end before the next. The rates and the base currency are known from the
beginning.
-/

namespace CurrencyPad.Engine

/-- Hands in an event. Nothing happens before its turn. -/
def submit (engine : Engine) (task : TaskId) (event : Event) : Engine :=
  { engine with submissions := engine.submissions ++ [⟨task, event, false⟩] }

/-- Begins a change of currency. It is done at once if the currency is selected
already or the expression has no value; else it waits for rates with the amount
entered now. -/
def beginCurrency (engine : Engine) (task : TaskId) (code : Text) : Engine :=
  match Expression.value? engine.config.locale engine.expression with
  | none => finishWith task (engine.applyCurrency code none)
  | some amount =>
    if code = engine.currency then
      finishWith task (engine.applyCurrency code none)
    else
      { engine with
        conversions := engine.conversions ++
          [⟨task, engine.currency, code, amount, .requested⟩] }

def beginEvent (engine : Engine) (task : TaskId) : Event → Engine
  | .currency code => engine.beginCurrency task code
  | event => finishWith task (engine.dispatch event)

/-- Begins a task. An engine that is not started is started first. -/
def begin (engine : Engine) (submission : Submission) : Engine :=
  if submission.cancelled then engine.finish submission.task .cancelled
  else
    match engine.start with
    | (engine, some failure) => engine.finish submission.task (.failed failure)
    | (engine, none) => engine.beginEvent submission.task submission.event

def beginNext (engine : Engine) : Engine :=
  match engine.submissions with
  | [] => engine
  | submission :: rest => { engine with submissions := rest }.begin submission

def beginMany : Nat → Engine → Engine
  | 0, engine => engine
  | count + 1, engine => beginMany count engine.beginNext

def setConversion (engine : Engine) (conversion : PendingConversion) : Engine :=
  { engine with
    conversions := engine.conversions.map fun other =>
      if other.task = conversion.task then conversion else other }

/-- Looks for rates: a conversion receives what the signal tells or waits for
the first ones. -/
def look (engine : Engine) (conversion : PendingConversion) : Engine :=
  match conversion.read, engine.rates.value with
  | .requested, some rates =>
    engine.setConversion { conversion with read := .received rates }
  | .requested, none =>
    { engine with rates := engine.rates.await conversion.task }.setConversion
      { conversion with read := .waiting }
  | _, _ => engine

/-- The engine without the conversion of a task, which no longer waits for rates
either. -/
def dropConversion (engine : Engine) (task : TaskId) : Engine :=
  { engine with
    conversions := engine.conversions.filter (·.task != task)
    rates := engine.rates.forget task }

/-- Converts the amount of a change of currency with the rates that it received.
The converted amount becomes the expression; without a rate the expression
stays. -/
def convert (engine : Engine) (conversion : PendingConversion)
    (rates : Snapshot) : Step :=
  let source := conversion.source
  let target := conversion.target
  let amount := conversion.amount.value
  match rates.convert? source target amount with
  | some converted =>
    (engine.notice
      (.info .converted ("converted ".toList ++ source ++ " -> ".toList ++ target)
        [ ("from", .string source), ("to", .string target),
          ("amount", .real amount),
          ("converted", .real converted.value) ])).applyCurrency target
      (some (engine.amountText converted target))
  | none =>
    let known := if source.isEmpty then ['?'] else source
    (engine.notice
      (.warning .noConversion
        ("no rate from ".toList ++ known ++ " to ".toList ++ target)
        [("from", .string source), ("to", .string target)]
        "no_rate_path")).applyCurrency target
      none

/-- Ends a conversion that need not wait any longer. -/
def complete (engine : Engine) (conversion : PendingConversion) : Engine :=
  match conversion.read with
  | .requested => engine
  | .waiting => engine
  | .received (some rates) =>
    finishWith conversion.task
      ((engine.dropConversion conversion.task).convert conversion rates)
  | .received none =>
    (engine.dropConversion conversion.task).finish conversion.task .done
  | .abandoned =>
    (engine.dropConversion conversion.task).finish conversion.task .done
  | .cancelled =>
    (engine.dropConversion conversion.task).finish conversion.task .cancelled

/-- Lets everything come as far as it can: all events that were handed in begin
in their order, then the conversions look for rates, and those that have them
end in the order in which they began. -/
def settle (engine : Engine) : Engine :=
  let engine := beginMany engine.submissions.length engine
  let engine := engine.conversions.foldl look engine
  engine.conversions.foldl complete engine

/-- Hands in an event and lets everything come as far as it can. -/
def handle (engine : Engine) (task : TaskId) (event : Event) : Engine :=
  (engine.submit task event).settle

/-- Cancels a task that has not ended; others are left as they are. -/
def cancel (engine : Engine) (task : TaskId) : Engine :=
  { engine with
    submissions := engine.submissions.map fun submission =>
      if submission.task = task then submission.cancel else submission
    conversions := engine.conversions.map fun conversion =>
      if conversion.task = task then conversion.cancel else conversion }

def pending (engine : Engine) : Nat :=
  engine.submissions.length + engine.conversions.length

/-- Runs events one after another. Each gets the number after the one before
it. -/
def handleAll (engine : Engine) (task : TaskId) : List Event → Engine
  | [] => engine
  | event :: rest => handleAll (engine.handle task event) (task + 1) rest

/-- The engine after a session, still running. -/
def replay (config : Config) (rates : Snapshot) (base : Text) (initial : Money)
    (events : List Event) : Engine :=
  ((new config (some (some rates))
    (some (some (Text.upperCase base)))).start.1).handleAll 0
    (.initial (some initial) :: events)

def shown (engine : Engine) : Display :=
  engine.published.getD (Display.derive engine.config engine.sources)

end CurrencyPad.Engine
