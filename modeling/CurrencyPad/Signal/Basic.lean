import CurrencyPad.Signal.Cell
import CurrencyPad.Text.Quoted
import CurrencyPad.Text.Table

/-!
# Networks of signals

A network holds signals, which go by names. A signal is a cell, or a combination
that caches the latest values of other signals and has a function of them as its
value. A name can be given to another signal; who knew the old one still does.
Listeners are told of changes, subscriptions can be cancelled, and the value of
a signal can be requested once. Every call of a listener or of a function is
noted.
-/

namespace CurrencyPad

/-- The number of a signal, in the order in which signals are made. -/
abbrev SignalId := Nat

inductive SignalFailure where
  /-- A listener refuses what it is told. -/
  | listener
  /-- The signal with the given label has no value. -/
  | noValue (label : Text)
  /-- The function of a combination refuses the values of its sources. -/
  | refused (reason : String)
  /-- The function of a combination is not made for the kind of values that its
  sources have. -/
  | wrongKind
  /-- The function of a combination asks for more values than there are
  sources. -/
  | tooFewValues
  /-- A signal that is no combination is used as one. -/
  | notACombination
  | unknownSubscription (name : Text)
  | unknownSignal (name : Text)
  | unknownRequest (name : Text)
  /-- Signals set each other without end. -/
  | endless
deriving DecidableEq, Repr

namespace SignalFailure

def labelText (label : Text) : Text :=
  if label.isEmpty then ['?'] else label

def message : SignalFailure → String
  | .listener => "listener failed"
  | .noValue label =>
    "Signal " ++ String.ofList (Text.quoted (labelText label)) ++
      " has no value yet"
  | .refused reason => reason
  | .wrongKind => "the values of the sources are of the wrong kind"
  | .tooFewValues => "tuple index out of range"
  | .notACombination => "the signal is no combination"
  | .unknownSubscription name => String.ofList (Text.quoted name)
  | .unknownSignal name => String.ofList (Text.quoted name)
  | .unknownRequest name => String.ofList (Text.quoted name)
  | .endless => "the signals set each other without end"

end SignalFailure

/-- What a listener does once its call is noted. -/
inductive Reaction where
  | nothing
  | fail
  /-- Sets the signal that goes by a name to the value it is told. -/
  | forward (signal : Text)
  /-- Cancels a subscription. -/
  | cancel (subscription : Text)
deriving DecidableEq, Repr

/-- Who is told of the changes of a signal. -/
inductive Listener where
  | subscriber (label : Text) (reaction : Reaction)
  /-- The cache of a combination for its source of the given number. -/
  | source (combination : SignalId) (index : Nat)
deriving DecidableEq, Repr

structure Combination (α : Type) where
  sources : List SignalId
  /-- The numbers of the sources that may have no value. -/
  optional : List Nat
  /-- The value for the values of the sources. -/
  combine : List (Option α) → Except SignalFailure α
  /-- The latest value of each source. -/
  latest : List (Option α)
  /-- Whether the sources are listened to. -/
  attached : Bool
  /-- How many holds have not ended. -/
  holds : Nat
  /-- Whether a source changed during a hold. -/
  stale : Bool

structure Signal (α : Type) where
  /-- The name that it was given when it was made. -/
  name : Text
  /-- How messages call it. -/
  label : Text
  cell : Cell α Listener Text
  combination : Option (Combination α)

structure Subscription where
  signal : SignalId
  listener : Listener
  active : Bool
deriving DecidableEq, Repr

/-- How far a request for the value of a signal has come. -/
inductive ReadState (α : Type) where
  | requested
  | waiting
  | received (value : α)
  | cancelled
  /-- The answer has been given. -/
  | over
deriving DecidableEq, Repr

/-- A request for the value of a signal. -/
structure SignalRead (α : Type) where
  signal : SignalId
  state : ReadState α
deriving Repr

inductive Call (α : Type) where
  | listener (label : Text) (value : α)
  | combine (signal : Text) (arguments : List (Option α))

structure Network (α : Type) where
  /-- All signals by their numbers. -/
  signals : List (Signal α)
  /-- The signals that go by names. -/
  names : Table SignalId
  subscriptions : Table Subscription
  /-- The combinations that are held under each name, the latest hold first. -/
  held : Table (List SignalId)
  reads : Table (SignalRead α)
  /-- The calls so far, the latest first. -/
  calls : List (Call α)

/-- What a step gives, and the network after it. A failure does not undo what
happened before. -/
structure Outcome (α β : Type) where
  result : Except SignalFailure β
  network : Network α

namespace Outcome

variable {α β γ : Type}

def andThen (outcome : Outcome α β) (next : β → Network α → Outcome α γ) :
    Outcome α γ :=
  match outcome.result with
  | .ok value => next value outcome.network
  | .error failure => ⟨.error failure, outcome.network⟩

end Outcome

namespace Network

variable {α β : Type}

def empty : Network α :=
  ⟨[], [], [], [], [], []⟩

def done (network : Network α) (value : β) : Outcome α β :=
  ⟨.ok value, network⟩

def fail (network : Network α) (failure : SignalFailure) : Outcome α β :=
  ⟨.error failure, network⟩

def find? (network : Network α) (name : Text) : Option SignalId :=
  network.names.get? name

def signal? (network : Network α) (id : SignalId) : Option (Signal α) :=
  network.signals[id]?

def combination? (network : Network α) (id : SignalId) : Option (Combination α) :=
  (network.signal? id).bind (·.combination)

def value? (network : Network α) (id : SignalId) : Option α :=
  (network.signal? id).bind (·.cell.value)

def withName (network : Network α) (name : Text)
    (use : SignalId → Outcome α β) : Outcome α β :=
  match network.find? name with
  | some id => use id
  | none => network.fail (.unknownSignal name)

def withCombination (network : Network α) (id : SignalId)
    (use : Combination α → Outcome α β) : Outcome α β :=
  match network.combination? id with
  | some combination => use combination
  | none => network.fail .notACombination

/-- The network with one more signal, which goes by its name from now on. -/
def addSignal (network : Network α) (signal : Signal α) : Network α :=
  { network with
    signals := network.signals ++ [signal]
    names := network.names.set signal.name network.signals.length }

def modifySignal (network : Network α) (id : SignalId)
    (change : Signal α → Signal α) : Network α :=
  { network with signals := network.signals.modify id change }

def modifyCell (network : Network α) (id : SignalId)
    (change : Cell α Listener Text → Cell α Listener Text) : Network α :=
  network.modifySignal id fun signal => { signal with cell := change signal.cell }

def modifyCombination (network : Network α) (id : SignalId)
    (change : Combination α → Combination α) : Network α :=
  network.modifySignal id fun signal =>
    { signal with combination := signal.combination.map change }

def note (network : Network α) (call : Call α) : Network α :=
  { network with calls := call :: network.calls }

end Network

end CurrencyPad
