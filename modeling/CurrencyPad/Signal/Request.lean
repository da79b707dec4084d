import CurrencyPad.Signal.Basic

/-!
# Reading a signal once

A request for the value of a signal is looked at when the network settles. It is
answered with the value that is there, or else with the first one that is set.
-/

namespace CurrencyPad.Network

variable {α β : Type}

/-- Requests the value of a signal under a name. The request is looked at when
the network settles. -/
def request (network : Network α) (name : Text) (id : SignalId) : Network α :=
  { network with reads := network.reads.set name ⟨id, .requested⟩ }

/-- Cancels a request; one whose answer has been given is left as it is. -/
def cancelRequest (network : Network α) (name : Text) : Outcome α Unit :=
  match network.reads.get? name with
  | none => network.fail (.unknownRequest name)
  | some read =>
    match read.state with
    | .over => network.done ()
    | _ =>
      { network with
        reads := network.reads.set name
          { read with state := .cancelled } }.done ()

/-- Looks at a request: a value that is there is received, else the request
waits for the first. -/
def begin (network : Network α) (name : Text) (read : SignalRead α) : Network α :=
  match read.state with
  | .requested =>
    match network.value? read.signal with
    | some value =>
      { network with
        reads := network.reads.set name { read with state := .received value } }
    | none =>
      let network := network.modifyCell read.signal (·.await name)
      { network with
        reads := network.reads.set name { read with state := .waiting } }
  | _ => network

/-- The answer to a request that is still to be given: a value, or none if the
request was cancelled. -/
def answer? (read : SignalRead α) : Option (Option α) :=
  match read.state with
  | .received value => some (some value)
  | .cancelled => some none
  | _ => none

/-- Lets all requests come as far as they can. The answered ones are given in
the order of their names and leave no waiter behind. -/
def settle (network : Network α) : Table (Option α) × Network α :=
  let network :=
    network.reads.foldl
      (fun network (name, read) => network.begin name read) network
  let answered := network.reads.filterMap fun (name, read) =>
    (answer? read).map fun answer => (name, answer)
  let reads := network.reads.map fun (name, read) =>
    (name, if (answer? read).isSome then { read with state := .over } else read)
  let signals := network.signals.map fun signal =>
    { signal with
      cell := answered.foldl (fun cell answer => cell.forget answer.1)
        signal.cell }
  (Table.sorted answered, { network with signals, reads })

end CurrencyPad.Network
