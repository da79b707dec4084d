import CurrencyPad.Proofs.Text.Table
import CurrencyPad.Signal.Combination
import Mathlib.Logic.Function.Basic

/-!
# What combinations see of a network

A combination depends on the values of its sources and on where it is
registered. Waiters, requests and the subscribers of a signal do not matter to
it. The view of a network leaves them out: what subscribers do when they are
told of a value does not change it.
-/

namespace CurrencyPad

/-- A signal as far as combinations depend on it.  Registrations count how often
a combination listens for one of its sources. -/
structure Facet (α : Type) where
  name : Text
  value : Option α
  combination : Option (Combination α)
  registrations : SignalId → Nat → Nat

def Signal.facet {α : Type} (signal : Signal α) : Facet α where
  name := signal.name
  value := signal.cell.value
  combination := signal.combination
  registrations combination index :=
    signal.cell.listeners.count (.source combination index)

/-- A network as far as combinations depend on it, with the names of the
subscriptions and the number of computations so far. -/
structure View (α : Type) where
  facet : SignalId → Option (Facet α)
  held : Table (List SignalId)
  known : Text → Bool
  computations : Nat

def Call.isComputation {α : Type} : Call α → Bool
  | .combine _ _ => true
  | .listener _ _ => false

def View.modify {α : Type} (view : View α) (id : SignalId)
    (change : Facet α → Facet α) : View α :=
  { view with
    facet := Function.update view.facet id ((view.facet id).map change) }

def View.value {α : Type} (view : View α) (id : SignalId) : Option α :=
  (view.facet id).bind (·.value)

theorem View.value_modify_of_ne {α : Type} {id other : SignalId}
    (ne : other ≠ id) (view : View α) (change : Facet α → Facet α) :
    (view.modify id change).value other = view.value other := by
  unfold View.value View.modify
  dsimp only
  rw [Function.update_of_ne ne]

namespace Network

variable {α : Type} {network next : Network α}

def listeners (network : Network α) (id : SignalId) : List Listener :=
  ((network.signal? id).map (·.cell.listeners)).getD []

def computations (network : Network α) : Nat :=
  network.calls.countP Call.isComputation

def view (network : Network α) : View α where
  facet id := (network.signal? id).map Signal.facet
  held := network.held
  known name := (network.subscriptions.get? name).isSome
  computations := network.computations

/-- Only subscribers have subscriptions that can be cancelled. -/
def OnlySubscribers (network : Network α) : Prop :=
  ∀ name subscription, network.subscriptions.get? name = some subscription →
    ∃ label reaction, subscription.listener = .subscriber label reaction

@[simp]
theorem value_view (network : Network α) (id : SignalId) :
    network.view.value id = network.value? id := by
  unfold View.value view value?
  dsimp only
  cases network.signal? id <;> rfl

theorem signal?_modifySignal (network : Network α) (id other : SignalId)
    (change : Signal α → Signal α) :
    (network.modifySignal id change).signal? other =
      if other = id then (network.signal? id).map change
      else network.signal? other := by
  unfold modifySignal signal?
  dsimp only
  rw [List.getElem?_modify]
  by_cases same : id = other
  · rw [if_pos same.symm, same]
    simp
  · rw [if_neg (Ne.symm same)]
    simp [same]

theorem value?_modifyCell (network : Network α) (id other : SignalId)
    (change : Cell α Listener Text → Cell α Listener Text) :
    (network.modifyCell id change).value? other =
      if other = id then
        (network.signal? id).bind fun signal => (change signal.cell).value
      else network.value? other := by
  rw [value?, modifyCell, signal?_modifySignal, value?]
  split
  · rw [Option.bind_map]
    rfl
  · rfl

theorem listeners_modifyCell (network : Network α) (id other : SignalId)
    (change : Cell α Listener Text → Cell α Listener Text) :
    (network.modifyCell id change).listeners other =
      if other = id then
        ((network.signal? id).map fun signal =>
          (change signal.cell).listeners).getD []
      else network.listeners other := by
  rw [listeners, modifyCell, signal?_modifySignal, listeners]
  split
  · rw [Option.map_map]
    rfl
  · rfl

theorem facet_modifyCell (network : Network α) (id other : SignalId)
    (change : Cell α Listener Text → Cell α Listener Text) :
    (network.modifyCell id change).view.facet other =
      if other = id then
        (network.signal? id).map fun signal =>
          Signal.facet { signal with cell := change signal.cell }
      else network.view.facet other := by
  unfold view
  dsimp only
  rw [modifyCell, signal?_modifySignal]
  split
  · rw [Option.map_map]
    rfl
  · rfl

theorem signal?_addSignal (network : Network α) (signal : Signal α)
    (id : SignalId) :
    (network.addSignal signal).signal? id =
      if id = network.signals.length then some signal
      else network.signal? id := by
  unfold addSignal signal?
  dsimp only
  rcases Nat.lt_trichotomy id network.signals.length with
    inside | here | beyond
  · rw [List.getElem?_append_left inside, if_neg (Nat.ne_of_lt inside)]
  · rw [if_pos here, here, List.getElem?_concat_length]
  · have far : (network.signals ++ [signal]).length ≤ id := by
      rw [List.length_append]
      exact beyond
    rw [List.getElem?_eq_none far, if_neg (Nat.ne_of_gt beyond),
      List.getElem?_eq_none (Nat.le_of_lt beyond)]

theorem view_modifySignal {id : SignalId} {change : Signal α → Signal α}
    {facetChange : Facet α → Facet α}
    (same : ∀ signal, network.signal? id = some signal →
      (change signal).facet = facetChange signal.facet) :
    (network.modifySignal id change).view =
      network.view.modify id facetChange := by
  have facets : (network.modifySignal id change).view.facet =
      (network.view.modify id facetChange).facet := by
    funext other
    unfold view View.modify
    dsimp only
    rw [signal?_modifySignal]
    by_cases here : other = id
    · rw [if_pos here, here, Function.update_self]
      cases isSignal : network.signal? id with
      | none =>
          rfl
      | some signal =>
          exact congrArg some (same signal isSignal)
    · rw [if_neg here, Function.update_of_ne here]
  unfold view View.modify at facets ⊢
  dsimp only at facets
  rw [facets]
  rfl

theorem modify_eq_self {view : View α} {id : SignalId}
    {change : Facet α → Facet α}
    (same : ∀ facet, view.facet id = some facet → change facet = facet) :
    view.modify id change = view := by
  have kept : (view.facet id).map change = view.facet id := by
    cases isFacet : view.facet id with
    | none =>
        rfl
    | some facet =>
        exact congrArg some (same facet isFacet)
  unfold View.modify
  rw [kept, Function.update_eq_self]

/-- The network turned into one with the given view.  No signal got a listener,
and still only subscribers have subscriptions. -/
structure Yields (network : Network α) (view : View α) (next : Network α) :
    Prop where
  view : next.view = view
  listeners : ∀ id, ∀ listener ∈ next.listeners id,
    listener ∈ network.listeners id
  subscribers : network.OnlySubscribers → next.OnlySubscribers

theorem Yields.refl (network : Network α) :
    network.Yields network.view network :=
  ⟨rfl, fun _ _ member => member, id⟩

theorem Yields.trans {last : Network α} {middle final : View α}
    (first : network.Yields middle next) (second : next.Yields final last) :
    network.Yields final last :=
  ⟨second.view,
    fun id listener member =>
      first.listeners id listener (second.listeners id listener member),
    fun only => second.subscribers (first.subscribers only)⟩

/-- A change of a signal by which it gets no listener. -/
theorem yields_modifySignal {id : SignalId} {change : Signal α → Signal α}
    {facetChange : Facet α → Facet α}
    (same : ∀ signal, network.signal? id = some signal →
      (change signal).facet = facetChange signal.facet)
    (fewer : ∀ signal, network.signal? id = some signal →
      ∀ listener ∈ (change signal).cell.listeners,
        listener ∈ signal.cell.listeners) :
    network.Yields (network.view.modify id facetChange)
      (network.modifySignal id change) := by
  refine ⟨view_modifySignal same, fun other listener member => ?_,
    fun only => only⟩
  unfold listeners at member ⊢
  rw [signal?_modifySignal] at member
  by_cases here : other = id
  · rw [if_pos here] at member
    rw [here]
    cases isSignal : network.signal? id with
    | none =>
        rw [isSignal] at member
        exact member
    | some signal =>
        rw [isSignal] at member
        exact fewer signal isSignal listener member
  · rwa [if_neg here] at member

theorem yields_modifyCombination (network : Network α) (id : SignalId)
    (change : Combination α → Combination α) :
    network.Yields
      (network.view.modify id fun facet =>
        { facet with combination := facet.combination.map change })
      (network.modifyCombination id change) :=
  yields_modifySignal (fun _ _ => rfl) (fun _ _ _ member => member)

theorem yields_resolve (network : Network α) (id : SignalId)
    (waiters : List Text) (value : α) :
    network.Yields network.view (network.resolve id waiters value) :=
  ⟨rfl, fun _ _ member => member, fun only => only⟩

theorem yields_note_listener (network : Network α) (label : Text) (value : α) :
    network.Yields network.view (network.note (.listener label value)) :=
  ⟨rfl, fun _ _ member => member, fun only => only⟩

theorem yields_note_combine (network : Network α) (name : Text)
    (arguments : List (Option α)) :
    network.Yields
      { network.view with computations := network.view.computations + 1 }
      (network.note (.combine name arguments)) := by
  refine ⟨?_, fun _ _ member => member, fun only => only⟩
  have more : (network.note (.combine name arguments)).computations =
      network.computations + 1 :=
    List.countP_cons_of_pos rfl
  unfold view
  rw [more]
  rfl

/-- The listener neither fails nor sets a signal: it does nothing or cancels one
of the subscriptions. -/
def IsQuiet (known : Text → Bool) : Listener → Prop
  | .subscriber _ .nothing => True
  | .subscriber _ (.cancel name) => known name = true
  | _ => False

theorem yields_setSubscription {name : Text} {subscription : Subscription}
    (known : network.view.known name = true)
    (isSubscriber : ∃ label reaction,
      subscription.listener = .subscriber label reaction) :
    network.Yields network.view
      { network with
        subscriptions := network.subscriptions.set name subscription } := by
  refine ⟨?_, fun _ _ member => member, fun only other found isFound => ?_⟩
  · have kept : (fun other =>
        ((network.subscriptions.set name subscription).get? other).isSome) =
          fun other => (network.subscriptions.get? other).isSome := by
      funext other
      rw [Table.get?_set]
      split
      case isTrue same =>
        rw [← same]
        exact known.symm
      · rfl
    unfold view
    dsimp only
    rw [kept]
    rfl
  · dsimp only at isFound
    rw [Table.get?_set] at isFound
    split at isFound
    · cases isFound
      exact isSubscriber
    · exact only other found isFound

theorem yields_unregister (network : Network α) (id : SignalId) (label : Text)
    (reaction : Reaction) :
    network.Yields network.view
      (network.modifyCell id (·.unregister (.subscriber label reaction))) := by
  have unregistered : network.Yields
      (network.view.modify id fun facet => facet)
      (network.modifyCell id (·.unregister (.subscriber label reaction))) := by
    refine yields_modifySignal (fun signal _ => ?_)
      (fun signal _ listener member => List.mem_of_mem_erase member)
    -- Subscribers are no sources, so no registration is lost.
    have counts : ∀ combination index,
        (signal.cell.listeners.erase (.subscriber label reaction)).count
            (.source combination index) =
          signal.cell.listeners.count (.source combination index) := by
      intro combination index
      have differs : Listener.source combination index ≠
          .subscriber label reaction := by
        intro same
        cases same
      exact List.count_erase_of_ne differs
    unfold Signal.facet Cell.unregister
    dsimp only
    simp only [counts]
  rwa [modify_eq_self (fun _ _ => rfl)] at unregistered

/-- Cancelling a subscription changes nothing that combinations see. -/
theorem cancel_spec (only : network.OnlySubscribers) {name : Text}
    (known : network.view.known name = true) :
    ∃ next, network.cancel name = ⟨.ok (), next⟩ ∧
      network.Yields network.view next := by
  obtain ⟨subscription, isSubscription⟩ := Option.isSome_iff_exists.mp known
  unfold cancel
  rw [isSubscription]
  dsimp only
  split
  case isFalse =>
    exact ⟨network, rfl, .refl network⟩
  case isTrue =>
    obtain ⟨label, reaction, isSubscriber⟩ :=
      only name subscription isSubscription
    have unregistered := yields_unregister network subscription.signal label
      reaction
    rw [← isSubscriber] at unregistered
    refine ⟨_, rfl, unregistered.trans ?_⟩
    rw [← unregistered.view]
    refine yields_setSubscription ?_ ⟨label, reaction, isSubscriber⟩
    rw [unregistered.view]
    exact known

end Network

end CurrencyPad
