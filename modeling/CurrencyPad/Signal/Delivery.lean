import CurrencyPad.Signal.Basic

/-!
# Setting signals

Setting a signal tells all listeners before anything else happens, and what a
listener does in turn is done before the next one is told. A combination that
hears of a source computes its value anew, unless it is held: then it only notes
that it is stale.
-/

namespace CurrencyPad.Network

variable {α β : Type}

def resolve (network : Network α) (id : SignalId) (waiters : List Text)
    (value : α) : Network α :=
  { network with
    reads := network.reads.map fun (name, read) =>
      match read.state with
      | .waiting =>
        if read.signal = id ∧ waiters.contains name then
          (name, { read with state := .received value })
        else (name, read)
      | _ => (name, read) }

/-- Cancels the subscription with the given name; a second time does nothing. -/
def cancel (network : Network α) (name : Text) : Outcome α Unit :=
  match network.subscriptions.get? name with
  | none => network.fail (.unknownSubscription name)
  | some subscription =>
    if subscription.active then
      let released :=
        network.modifyCell subscription.signal
          (·.unregister subscription.listener)
      { released with
        subscriptions := released.subscriptions.set name
          { subscription with active := false } }.done
        ()
    else network.done ()

/-- The arguments of a combination's function; none while a required source has
no value. -/
def arguments? (combination : Combination α) : Option (List (Option α)) :=
  let missing := combination.latest.zipIdx.any fun (value, index) =>
    value.isNone && !combination.optional.contains index
  if missing then none else some combination.latest

abbrev Setting (α : Type) := Network α → SignalId → α → Outcome α Bool

def recompute (set : Setting α) (network : Network α) (id : SignalId) :
    Outcome α Unit :=
  let network := network.modifyCombination id ({ · with stale := false })
  match network.signal? id, network.combination? id with
  | some signal, some combination =>
    match arguments? combination with
    | none => network.done ()
    | some arguments =>
      let network := network.note (.combine signal.name arguments)
      match combination.combine arguments with
      | .error failure => network.fail failure
      | .ok value =>
        (set network id value).andThen fun _ network => network.done ()
  | _, _ => network.done ()

def deliver (set : Setting α) (value : α) (network : Network α) :
    Listener → Outcome α Unit
  | .subscriber label reaction =>
    let network := network.note (.listener label value)
    match reaction with
    | .nothing => network.done ()
    | .fail => network.fail .listener
    | .forward name =>
      network.withName name fun id =>
        (set network id value).andThen fun _ network => network.done ()
    | .cancel subscription => network.cancel subscription
  | .source id index =>
    let network := network.modifyCombination id fun combination =>
      { combination with latest := combination.latest.set index (some value) }
    if (network.combination? id).any (·.holds != 0) then
      (network.modifyCombination id ({ · with stale := true })).done ()
    else recompute set network id

/-- Tells listeners one after another; the first that fails is the last that is
told. -/
def deliverAll (set : Setting α) (value : α) (network : Network α) :
    List Listener → Outcome α Unit
  | [] => network.done ()
  | listener :: rest =>
    (deliver set value network listener).andThen fun _ network =>
      deliverAll set value network rest

/-- Sets a signal, where signals may set each other in turn to the given depth.
The answer tells whether the value was new. -/
def setWithin [BEq α] : Nat → Setting α
  | 0, network, _, _ => network.fail .endless
  | depth + 1, network, id, value =>
    match (network.signal? id).map (·.cell) with
    | none => network.done false
    | some before =>
      match before.change? value with
      | none => network.done false
      | some after =>
        let network :=
          (network.modifyCell id fun _ => after).resolve id before.waiters value
        (deliverAll (setWithin depth) value network before.listeners).andThen
          fun _ network => network.done true

/-- How deep signals may set each other. -/
def depthLimit : Nat := 1000

/-- Sets a signal and tells all listeners. The answer tells whether the value
was new. -/
def set [BEq α] : Setting α :=
  setWithin depthLimit

end CurrencyPad.Network
