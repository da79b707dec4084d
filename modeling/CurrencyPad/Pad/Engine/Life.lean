import CurrencyPad.Json.Shown
import CurrencyPad.Pad.Engine.Basic

/-!
# Life of the engine

The engine listens to the signals of rates and of the base currency from its
start until it is disposed. Each signal tells the event log first and then the
display.
-/

namespace CurrencyPad.Engine

def start (engine : Engine) : Step :=
  if engine.disposed then (engine, some .disposed)
  else if engine.started then engine.ok
  else
    let engine :=
      { engine with
        started := true
        rates := (engine.rates.register .log).register .display
        base := (engine.base.register .log).register .display
        attached := true
        heard := engine.sources
        stale := true }
    andThen engine.release fun engine =>
      (engine.notice (.info .started "amount pad started".toList [])).ok

/-- Stops the engine for good: it listens no more, conversions are given up, and
events that are not begun are cancelled. -/
def dispose (engine : Engine) : Engine :=
  if engine.disposed then engine
  else
    let engine :=
      { engine with
        disposed := true
        rates := (engine.rates.unregister .log).unregister .display
        base := (engine.base.unregister .log).unregister .display
        attached := false
        conversions := engine.conversions.map PendingConversion.abandon
        submissions := engine.submissions.map Submission.cancel }
    engine.notice (.info .disposed "amount pad disposed".toList [])

/-- Tells a listener of new rates. The event log fails where there are none. -/
def tellRates (engine : Engine) (rates : Option Snapshot) : EngineListener → Step
  | .log =>
    match rates with
    | some rates =>
      (engine.notice
        (.info .rates "exchange rates updated".toList
          [ ("base_currency", Json.optionalText rates.pivot),
            ("currencies", .array (rates.currencies.map .string)) ])).ok
    | none => (engine, some .noRates)
  | .display => (engine.hear ({ · with rates := rates })).release
  | .outside _ => engine.ok

def tellBase (engine : Engine) (base : Option Text) : EngineListener → Step
  | .log =>
    (engine.notice
      (.info .baseCurrency
        ("base currency is ".toList ++ base.getD Json.null.shown)
        [("base_currency", Json.optionalText base)])).ok
  | .display => (engine.hear ({ · with base := base })).release
  | .outside _ => engine.ok

/-- Tells listeners one after another until one fails. -/
def tellAll (tell : Engine → EngineListener → Step) (engine : Engine) :
    List EngineListener → Step
  | [] => engine.ok
  | listener :: rest =>
    andThen (tell engine listener) fun engine => tellAll tell engine rest

/-- New rates, or none any more. Conversions that wait receive them before
anyone else is told. -/
def setRates (engine : Engine) (rates : Option Snapshot) : Step :=
  match engine.rates.change? rates with
  | none => engine.ok
  | some cell =>
    let engine' :=
      { engine with
        rates := cell
        conversions := engine.conversions.map
          (PendingConversion.receive rates engine.rates.waiters) }
    tellAll (fun engine => engine.tellRates rates) engine' engine.rates.listeners

def setBase (engine : Engine) (base : Option Text) : Step :=
  match engine.base.change? base with
  | none => engine.ok
  | some cell =>
    tellAll (fun engine => engine.tellBase base) { engine with base := cell }
      engine.base.listeners

def addRefusing (engine : Engine) : Engine :=
  { engine with refusing := engine.refusing + 1 }

def removeRefusing (engine : Engine) : Engine :=
  { engine with refusing := engine.refusing - 1 }

end CurrencyPad.Engine
