import CurrencyPad.Signal.Delivery

/-!
# Signals and subscriptions

Signals are made under names and looked at. A subscription registers a listener
with a signal until it is cancelled.
-/

namespace CurrencyPad.Network

variable {α β : Type}

/-- The network with a signal that has a value or not. -/
def addCell (network : Network α) (name label : Text) (value : Option α) :
    Network α :=
  network.addSignal ⟨name, label, .new value, none⟩

/-- The network with a combination of the signals that go by some names. It is
not started. -/
def addCombination (network : Network α) (name label : Text) (sources : List Text)
    (optional : List Nat) (combine : List (Option α) → Except SignalFailure α) :
    Outcome α Unit :=
  match sources.find? fun source => (network.find? source).isNone with
  | some unknown => network.fail (.unknownSignal unknown)
  | none =>
    let sources := sources.filterMap network.find?
    let latest := List.replicate sources.length none
    let combination : Combination α :=
      { sources, optional, combine, latest, attached := false, holds := 0,
        stale := false }
    (network.addSignal ⟨name, label, .new none, some combination⟩).done ()

def value (network : Network α) (id : SignalId) : Outcome α α :=
  match network.value? id with
  | some value => network.done value
  | none => network.fail (.noValue (((network.signal? id).map (·.label)).getD []))

def hasValue (network : Network α) (id : SignalId) : Bool :=
  (network.value? id).isSome

/-- A signal as messages show it, given how its value is shown. -/
def shown (showValue : α → Text) (network : Network α) (id : SignalId) : Text :=
  let label := ((network.signal? id).map (·.label)).getD []
  let value :=
    match network.value? id with
    | some value => showValue value
    | none => "<unset>".toList
  "StateSignal(".toList ++ SignalFailure.labelText label ++ '=' :: value ++ [')']

def listenerCounts (network : Network α) : Table Nat :=
  network.names.map fun (name, id) =>
    (name, ((network.signal? id).map (·.cell.listeners.length)).getD 0)

/-- Registers a listener under a name. With `replay` it is told the value at
once, if there is one; if it fails then, it stays registered, but there is no
subscription to cancel. -/
def subscribe [BEq α] (network : Network α) (name : Text) (id : SignalId)
    (listener : Listener) (replay : Bool) : Outcome α Unit :=
  let registered := network.modifyCell id (·.register listener)
  let told :=
    match replay, network.value? id with
    | true, some value => deliver set value registered listener
    | _, _ => registered.done ()
  told.andThen fun _ network =>
    { network with
      subscriptions :=
        network.subscriptions.set name ⟨id, listener, true⟩ }.done ()

def isActive (network : Network α) (name : Text) : Outcome α Bool :=
  match network.subscriptions.get? name with
  | some subscription => network.done subscription.active
  | none => network.fail (.unknownSubscription name)

end CurrencyPad.Network
