import CurrencyPad.Signal.Delivery

/-!
# Combinations of signals

A combination listens to its sources from its start until it is closed. It can
be held: then it notes that a source changed and computes at most once, when the
outermost hold ends.
-/

namespace CurrencyPad.Network

variable {α β : Type}

def beginHold (network : Network α) (id : SignalId) : Network α :=
  network.modifyCombination id fun combination =>
    { combination with holds := combination.holds + 1 }

/-- Counts a hold of a combination no more. When the last hold ends, a
combination whose sources changed is computed. -/
def endHold [BEq α] (network : Network α) (id : SignalId) : Outcome α Unit :=
  let network := network.modifyCombination id fun combination =>
    { combination with holds := combination.holds - 1 }
  if (network.combination? id).any fun combination =>
      combination.holds == 0 && combination.stale then
    recompute set network id
  else network.done ()

/-- The combinations that are held under a name, the latest hold first. -/
def heldUnder (network : Network α) (name : Text) : List SignalId :=
  (network.held.get? name).getD []

def hold (network : Network α) (id : SignalId) : Outcome α Unit :=
  network.withCombination id fun _ =>
    let name := ((network.signal? id).map (·.name)).getD []
    let held := network.held.set name (id :: network.heldUnder name)
    ({ network with held }.beginHold id).done ()

/-- Ends the latest hold under a name, if there is one. -/
def release [BEq α] (network : Network α) (name : Text) : Outcome α Unit :=
  match network.heldUnder name with
  | [] => network.done ()
  | id :: rest => { network with held := network.held.set name rest }.endHold id

/-- Registers a combination with its sources from the given number on. Each
tells its value at once, if it has one. -/
def attach [BEq α] (id : SignalId) (index : Nat) (network : Network α) :
    List SignalId → Outcome α Unit
  | [] => network.done ()
  | source :: rest =>
    let listener := Listener.source id index
    let registered := network.modifyCell source (·.register listener)
    let told :=
      match network.value? source with
      | some value => deliver set value registered listener
      | none => registered.done ()
    told.andThen fun _ network => attach id (index + 1) network rest

/-- Makes a combination listen to its sources and computes its first value. A
started combination is left as it is. -/
def start [BEq α] (network : Network α) (id : SignalId) : Outcome α Unit :=
  network.withCombination id fun combination =>
    if combination.attached then network.done ()
    else
      (attach id 0 (network.beginHold id) combination.sources).andThen
        fun _ network =>
          (network.modifyCombination id
            ({ · with attached := true })).endHold id

/-- Takes a combination off its sources from the given number on. -/
def detach (id : SignalId) (index : Nat) (network : Network α) :
    List SignalId → Network α
  | [] => network
  | source :: rest =>
    detach id (index + 1)
      (network.modifyCell source (·.unregister (.source id index))) rest

/-- Makes a combination listen no more. It keeps its value and what it knows of
its sources. -/
def close (network : Network α) (id : SignalId) : Outcome α Unit :=
  network.withCombination id fun combination =>
    if combination.attached then
      ((detach id 0 network combination.sources).modifyCombination id
        ({ · with attached := false })).done ()
    else network.done ()

def isStarted (network : Network α) (id : SignalId) : Outcome α Bool :=
  network.withCombination id fun combination =>
    network.done (combination.attached && !combination.sources.isEmpty)

end CurrencyPad.Network
