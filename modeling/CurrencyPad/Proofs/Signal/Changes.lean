import CurrencyPad.Proofs.Signal.Scene
import Mathlib.Logic.Relation

/-!
# Changes by settings

Setting a signal makes small changes one after another, up to the failure if it
fails.  What each of them keeps is kept by the whole setting, however deep signals
set each other.  Only signals are set that can be reached from the first one.
-/

namespace CurrencyPad

variable {α : Type}

namespace Network

variable {network next : Network α} {id : SignalId} {value : α}

/-- One of the changes that come of setting a signal, where only some signals may
be set. -/
inductive Change (may : SignalId → Prop) (network : Network α) :
    Network α → Prop
  | note (call : Call α) : Change may network (network.note call)
  | setStale (id : SignalId) (stale : Bool) :
      Change may network
        (network.modifyCombination id fun combination =>
          { combination with stale })
  | learn (id : SignalId) (index : Nat) (value : α) :
      Change may network
        (network.modifyCombination id fun combination =>
          { combination with
            latest := combination.latest.set index (some value) })
  | cancel (name : Text) : Change may network (network.cancel name).network
  | store (id : SignalId) (value : α) (allowed : may id) :
      Change may network (network.store id value)

/-- Changes one after another. -/
def Changes (may : SignalId → Prop) : Network α → Network α → Prop :=
  Relation.ReflTransGen (Change may)

theorem scene_cancel (network : Network α) (name : Text) :
    (network.cancel name).network.scene = network.scene ∨
      ∃ subscription,
        (network.cancel name).network.scene =
          network.scene.drop name subscription := by
  unfold cancel
  split
  · exact .inl rfl
  case h_2 subscription _ =>
    split
    · refine .inr ⟨subscription, ?_⟩
      unfold done
      dsimp only
      rw [scene_setSubscription, scene_unregister]
      rfl
    · exact .inl rfl

theorem Change.shrinks {may : SignalId → Prop}
    (change : Change may network next) : network.scene.Shrinks next.scene := by
  cases change with
  | note call =>
      cases call with
      | listener label value =>
          rw [scene_note_listener network label value .nothing]
          exact Scene.shrinks_hear _ _
      | combine name arguments =>
          exact .refl _
  | setStale id stale =>
      rw [scene_setStale]
      exact .refl _
  | learn id index value =>
      rw [scene_learn]
      exact Scene.shrinks_hear _ _
  | cancel name =>
      rcases scene_cancel network name with same | ⟨subscription, dropped⟩
      · rw [same]
        exact .refl _
      · rw [dropped]
        exact Scene.shrinks_drop _ _ _
  | store id value =>
      cases isSignal : network.signal? id with
      | none =>
          unfold Network.store
          rw [isSignal]
          exact .refl _
      | some signal =>
          rw [scene_store isSignal]
          exact Scene.shrinks_put _ _ _

/-- A signal that may not be set keeps its value. -/
theorem Change.value?_eq {may : SignalId → Prop}
    (change : Change may network next) (forbidden : ¬ may id) :
    next.value? id = network.value? id := by
  show next.scene.value id = network.scene.value id
  cases change with
  | note call =>
      rfl
  | setStale other stale =>
      rw [scene_setStale]
  | learn other index value =>
      rw [scene_learn, Scene.value_hear]
  | cancel name =>
      rcases scene_cancel network name with same | ⟨subscription, dropped⟩
      · rw [same]
      · rw [dropped]
        rfl
  | store other value allowed =>
      have differs : id ≠ other := by
        rintro rfl
        exact forbidden allowed
      cases isSignal : network.signal? other with
      | none =>
          unfold Network.store
          rw [isSignal]
      | some signal =>
          rw [scene_store isSignal]
          exact Function.update_of_ne differs ..

theorem Changes.value?_eq {may : SignalId → Prop}
    (changes : Changes may network next) (forbidden : ¬ may id) :
    next.value? id = network.value? id := by
  induction changes with
  | refl =>
      rfl
  | tail _ change inductionHypothesis =>
      exact (change.value?_eq forbidden).trans inductionHypothesis

theorem Changes.shrinks {may : SignalId → Prop}
    (changes : Changes may network next) :
    network.scene.Shrinks next.scene := by
  induction changes with
  | refl =>
      exact .refl _
  | tail _ change inductionHypothesis =>
      exact inductionHypothesis.trans change.shrinks

/-- Beginning with a signal that may be set, the setting makes changes only, as
long as the listeners are among those at the start. -/
def ChangesOnly (start : Scene α) (may : SignalId → Prop) (set : Setting α) :
    Prop :=
  ∀ network id value, start.Shrinks network.scene → may id →
    Changes may network (set network id value).network

/-- Whoever listens to a signal that may be set sets only such signals. -/
def IsClosed (start : Scene α) (may : SignalId → Prop) : Prop :=
  ∀ id, may id → ∀ listener ∈ start.listeners id,
    ∀ other, start.Sets listener other → may other

@[simp]
theorem network_andThen_done {β γ : Type} (outcome : Outcome α β) (value : γ) :
    (outcome.andThen fun _ network => network.done value).network =
      outcome.network := by
  obtain ⟨result, network⟩ := outcome
  cases result <;> rfl

variable {start : Scene α} {may : SignalId → Prop} {set : Setting α}

theorem changes_recompute (only : ChangesOnly start may set)
    (shrinks : start.Shrinks network.scene) (allowed : may id) :
    Changes may network (recompute set network id).network := by
  have fresh : Change may network
      (network.modifyCombination id ({ · with stale := false })) :=
    .setStale id false
  have still := shrinks.trans fresh.shrinks
  unfold recompute
  dsimp only
  generalize network.modifyCombination id ({ · with stale := false }) = reset
    at fresh still
  have reached : Changes may network reset := .single fresh
  split
  case h_1 signal combination _ _ =>
    split
    · exact reached
    case h_2 arguments _ =>
      have noted := reached.tail (.note (.combine signal.name arguments))
      split
      · exact noted
      · rw [network_andThen_done]
        exact noted.trans (only _ _ _ still allowed)
  · exact reached

theorem changes_deliver (only : ChangesOnly start may set)
    (shrinks : start.Shrinks network.scene) {listener : Listener}
    (allowed : ∀ id, start.Sets listener id → may id) :
    Changes may network (deliver set value network listener).network := by
  cases listener with
  | subscriber label reaction =>
      have noted : Change may network
          (network.note (.listener label value)) :=
        .note _
      have still := shrinks.trans noted.shrinks
      cases reaction with
      | nothing =>
          exact .single noted
      | fail =>
          exact .single noted
      | cancel name =>
          exact (Relation.ReflTransGen.single noted).tail (.cancel name)
      | forward name =>
          unfold deliver withName
          dsimp only
          split
          case h_1 id isTarget =>
            have sets : start.find name = some id := by
              rw [← still.find]
              exact isTarget
            rw [network_andThen_done]
            exact .trans (.single noted)
              (only _ _ _ still (allowed id sets))
          · exact .single noted
  | source id index =>
      have learnt : Change may network
          (network.modifyCombination id fun combination =>
            { combination with
              latest := combination.latest.set index (some value) }) :=
        .learn id index value
      have still := shrinks.trans learnt.shrinks
      unfold deliver
      dsimp only
      split
      · exact (Relation.ReflTransGen.single learnt).tail (.setStale id true)
      · exact .trans (.single learnt)
          (changes_recompute only still (allowed id rfl))

theorem changes_deliverAll (only : ChangesOnly start may set)
    {listeners : List Listener}
    (allowed : ∀ listener ∈ listeners,
      ∀ id, start.Sets listener id → may id)
    (shrinks : start.Shrinks network.scene) :
    Changes may network (deliverAll set value network listeners).network := by
  induction listeners generalizing network with
  | nil =>
      exact .refl
  | cons listener rest inductionHypothesis =>
      rw [List.forall_mem_cons] at allowed
      have first : Changes may network
          (deliver set value network listener).network :=
        changes_deliver only shrinks allowed.1
      rw [deliverAll]
      generalize deliver set value network listener = told at first
      obtain ⟨result, middle⟩ := told
      cases result with
      | error failure =>
          exact first
      | ok =>
          exact first.trans (inductionHypothesis allowed.2
            (shrinks.trans first.shrinks))

variable [BEq α]

theorem changes_setWithin (closed : IsClosed start may) (depth : Nat) :
    ChangesOnly start may (setWithin depth : Setting α) := by
  induction depth with
  | zero =>
      exact fun _ _ _ _ _ => .refl
  | succ depth inductionHypothesis =>
      intro network id value shrinks allowed
      cases isSignal : network.signal? id with
      | none =>
          rw [setWithin_unknown depth isSignal]
          exact .refl
      | some signal =>
          rw [setWithin_succ depth isSignal]
          split
          · exact .refl
          · have stored : Change may network (network.store id value) :=
              .store id value allowed
            rw [network_andThen_done]
            refine .trans (.single stored) (changes_deliverAll
              inductionHypothesis (fun listener member => ?_)
              (shrinks.trans stored.shrinks))
            rw [← listeners_eq isSignal] at member
            exact closed id allowed listener
              ((shrinks.listeners id).subset member)

end Network

end CurrencyPad
