import CurrencyPad.Proofs.Signal.View
import CurrencyPad.Signal.Network

/-!
# Messages between signals

A listener that is told of a value does at most one thing: it sets a signal or
cancels a subscription.  A signal that is set has a message for each of its
listeners, and these messages come before all that are still to be told.  What a
setting does is therefore told message by message, and no nesting is left.
-/

namespace CurrencyPad

variable {α : Type}

structure Message (α : Type) where
  value : α
  listener : Listener

/-- Who remembers a value that is told: a subscriber by its label, or the cache
of a combination. -/
inductive Hearer where
  | subscriber (label : Text)
  | cache (combination : SignalId) (index : Nat)
deriving DecidableEq

def Listener.hearer : Listener → Hearer
  | .subscriber label _ => .subscriber label
  | .source combination index => .cache combination index

/-- A network as far as messages depend on it and change it. -/
structure Scene (α : Type) where
  /-- The number of signals. -/
  size : Nat
  find : Text → Option SignalId
  value : SignalId → Option α
  listeners : SignalId → List Listener
  subscription : Text → Option Subscription
  /-- What subscribers were told, the latest first. -/
  hearings : Table α
  /-- The caches of combinations for their sources. -/
  cache : SignalId → Nat → Option (Option α)

/-- What a subscriber was told, if the call is one of a subscriber. -/
def Call.hearing? : Call α → Option (Text × α)
  | .listener label value => some (label, value)
  | .combine _ _ => none

namespace Network

def cache (network : Network α) (combination : SignalId) (index : Nat) :
    Option (Option α) :=
  (network.combination? combination).bind (·.latest[index]?)

def scene (network : Network α) : Scene α where
  size := network.signals.length
  find := network.find?
  value := network.value?
  listeners := network.listeners
  subscription := network.subscriptions.get?
  hearings := network.calls.filterMap Call.hearing?
  cache := network.cache

end Network

namespace Scene

def lastHeard (scene : Scene α) : Hearer → Option α
  | .subscriber label => scene.hearings.get? label
  | .cache combination index => (scene.cache combination index).join

def hear (scene : Scene α) (message : Message α) : Scene α :=
  match message.listener with
  | .subscriber label _ =>
    { scene with hearings := (label, message.value) :: scene.hearings }
  | .source combination index =>
    { scene with
      cache := Function.update scene.cache combination
        (Function.update (scene.cache combination) index
          ((scene.cache combination index).map fun _ => some message.value)) }

def put (scene : Scene α) (id : SignalId) (value : α) : Scene α :=
  { scene with value := Function.update scene.value id (some value) }

def withListeners (scene : Scene α) (id : SignalId)
    (listeners : List Listener) : Scene α :=
  { scene with
    listeners := Function.update scene.listeners id listeners }

def withSubscription (scene : Scene α) (name : Text)
    (subscription : Subscription) : Scene α :=
  { scene with
    subscription :=
      Function.update scene.subscription name (some subscription) }

def drop (scene : Scene α) (name : Text) (subscription : Subscription) :
    Scene α :=
  (scene.withListeners subscription.signal
    ((scene.listeners subscription.signal).erase
      subscription.listener)).withSubscription name
        { subscription with active := false }

def posts (scene : Scene α) (id : SignalId) (value : α) : List (Message α) :=
  (scene.listeners id).map (⟨value, ·⟩)

/-- The listener sets the signal when it is told of a value. -/
def Sets (scene : Scene α) : Listener → SignalId → Prop
  | .subscriber _ (.forward name), id => scene.find name = some id
  | .source combination _, id => combination = id
  | _, _ => False

@[simp]
theorem size_hear (scene : Scene α) (message : Message α) :
    (scene.hear message).size = scene.size := by
  unfold hear
  split <;> rfl

@[simp]
theorem value_hear (scene : Scene α) (message : Message α) :
    (scene.hear message).value = scene.value := by
  unfold hear
  split <;> rfl

@[simp]
theorem listeners_hear (scene : Scene α) (message : Message α) :
    (scene.hear message).listeners = scene.listeners := by
  unfold hear
  split <;> rfl

theorem posts_hear (scene : Scene α) (message : Message α) (id : SignalId)
    (value : α) : (scene.hear message).posts id value = scene.posts id value := by
  rw [posts, posts, listeners_hear]

theorem mem_posts {scene : Scene α} {id : SignalId} {value : α}
    {message : Message α} :
    message ∈ scene.posts id value ↔
      message.value = value ∧ message.listener ∈ scene.listeners id := by
  obtain ⟨_, listener⟩ := message
  unfold posts
  rw [List.mem_map]
  constructor
  · rintro ⟨_, member, same⟩
    cases same
    exact ⟨rfl, member⟩
  · rintro ⟨rfl, member⟩
    exact ⟨listener, member, rfl⟩

variable [BEq α]

/-- What telling a message does: the listener hears it and does no more, or sets
a signal to a value that is new to it, or cancels a subscription. -/
inductive Tells (scene : Scene α) (message : Message α) :
    Scene α → List (Message α) → Prop
  | rest : Tells scene message (scene.hear message) []
  | set (id : SignalId) (value : α) (sets : scene.Sets message.listener id)
      (exists_signal : id < scene.size)
      (new : (scene.value id).any (· == value) = false) :
      Tells scene message ((scene.hear message).put id value)
        (scene.posts id value)
  | cancel (label name : Text) (subscription : Subscription)
      (cancels : message.listener = .subscriber label (.cancel name))
      (isSubscription : scene.subscription name = some subscription)
      (active : subscription.active = true) :
      Tells scene message ((scene.hear message).drop name subscription) []

/-- The messages are told one after another, each with what comes of it. -/
inductive Works : Scene α → List (Message α) → Scene α → Prop
  | nil (scene : Scene α) : Works scene [] scene
  | cons {scene middle last : Scene α} {message : Message α}
      {posts rest : List (Message α)}
      (tells : scene.Tells message middle posts)
      (works : Works middle (posts ++ rest) last) :
      Works scene (message :: rest) last

theorem Works.append {scene middle last : Scene α}
    {first second : List (Message α)} (works : Works scene first middle)
    (next : Works middle second last) : Works scene (first ++ second) last := by
  induction works with
  | nil =>
      exact next
  | cons tells _ inductionHypothesis =>
      have rest := inductionHypothesis next
      rw [List.append_assoc] at rest
      exact .cons tells rest

/-! ## What messages lead to -/

omit [BEq α]

/-- What the listener is told may have the consequence that some listener is told
which acts in a given way: that listener is it, or listens to a signal that is
set in consequence. -/
inductive Leads (scene : Scene α) (acts : Listener → Prop) : Listener → Prop
  | itself {listener : Listener} (does : acts listener) :
      Leads scene acts listener
  | onward {listener other : Listener} {id : SignalId}
      (sets : scene.Sets listener id) (member : other ∈ scene.listeners id)
      (leads : Leads scene acts other) : Leads scene acts listener

/-- The listener may set the signal when it is told of a value. -/
def MaySet (scene : Scene α) (id : SignalId) (listener : Listener) : Prop :=
  scene.Leads (scene.Sets · id) listener

/-- No signal, name or cache is another, and no signal has more listeners. -/
structure Shrinks (scene next : Scene α) : Prop where
  size : next.size = scene.size
  find : next.find = scene.find
  listeners : ∀ id, (next.listeners id).Sublist (scene.listeners id)
  cache : ∀ combination index,
    (next.cache combination index).isSome =
      (scene.cache combination index).isSome

theorem Shrinks.refl (scene : Scene α) : scene.Shrinks scene :=
  ⟨rfl, rfl, fun _ => .refl _, fun _ _ => rfl⟩

theorem Shrinks.trans {scene middle last : Scene α}
    (first : scene.Shrinks middle) (second : middle.Shrinks last) :
    scene.Shrinks last :=
  ⟨second.size.trans first.size, second.find.trans first.find,
    fun id => (second.listeners id).trans (first.listeners id),
    fun combination index =>
      (second.cache combination index).trans (first.cache combination index)⟩

theorem Shrinks.sets_iff {scene next : Scene α} (shrinks : scene.Shrinks next)
    {listener : Listener} {id : SignalId} :
    next.Sets listener id ↔ scene.Sets listener id := by
  unfold Sets
  rw [shrinks.find]

theorem shrinks_hear (scene : Scene α) (message : Message α) :
    scene.Shrinks (scene.hear message) := by
  unfold hear
  split
  · exact ⟨rfl, rfl, fun _ => .refl _, fun _ _ => rfl⟩
  · refine ⟨rfl, rfl, fun _ => .refl _, fun other position => ?_⟩
    dsimp only
    rw [Function.update_apply]
    split
    case isTrue same =>
      rw [Function.update_apply]
      split
      case isTrue samePosition =>
        rw [same, samePosition, Option.isSome_map]
      case isFalse =>
        rw [same]
    case isFalse =>
      rfl

theorem shrinks_put (scene : Scene α) (id : SignalId) (value : α) :
    scene.Shrinks (scene.put id value) :=
  ⟨rfl, rfl, fun _ => .refl _, fun _ _ => rfl⟩

theorem shrinks_drop (scene : Scene α) (name : Text)
    (subscription : Subscription) :
    scene.Shrinks (scene.drop name subscription) := by
  refine ⟨rfl, rfl, fun id => ?_, fun _ _ => rfl⟩
  show (Function.update scene.listeners subscription.signal _ id).Sublist _
  rw [Function.update_apply]
  split
  case isTrue same =>
    rw [same]
    exact List.erase_sublist
  case isFalse =>
    exact .refl _

theorem Tells.shrinks [BEq α] {scene next : Scene α} {message : Message α}
    {posts : List (Message α)} (tells : scene.Tells message next posts) :
    scene.Shrinks next := by
  have hears := shrinks_hear scene message
  cases tells with
  | rest =>
      exact hears
  | set =>
      exact hears.trans (shrinks_put _ _ _)
  | cancel =>
      exact hears.trans (shrinks_drop _ _ _)

end Scene

/-! ## Changes of networks -/

namespace Network

variable {network : Network α}

@[simp]
theorem scene_note_listener (network : Network α) (label : Text) (value : α)
    (reaction : Reaction) :
    (network.note (.listener label value)).scene =
      network.scene.hear ⟨value, .subscriber label reaction⟩ :=
  rfl

@[simp]
theorem scene_note_combine (network : Network α) (name : Text)
    (arguments : List (Option α)) :
    (network.note (.combine name arguments)).scene = network.scene :=
  rfl

@[simp]
theorem scene_resolve (network : Network α) (id : SignalId)
    (waiters : List Text) (value : α) :
    (network.resolve id waiters value).scene = network.scene :=
  rfl

@[simp]
theorem scene_setSubscription (network : Network α) (name : Text)
    (subscription : Subscription) :
    ({ network with
        subscriptions :=
          network.subscriptions.set name subscription } : Network α).scene =
      network.scene.withSubscription name subscription := by
  have subscriptions : (network.subscriptions.set name subscription).get? =
      Function.update network.subscriptions.get? name (some subscription) := by
    funext other
    rw [Table.get?_set, Function.update_apply]
    simp only [eq_comm]
  unfold scene Scene.withSubscription
  dsimp only
  rw [subscriptions]
  rfl

theorem size_modifySignal (network : Network α) (id : SignalId)
    (change : Signal α → Signal α) :
    (network.modifySignal id change).scene.size = network.scene.size :=
  List.length_modify ..

/-- A change of a cell is one of its value and of its listeners. -/
theorem scene_modifyCell {id : SignalId} {signal : Signal α}
    (isSignal : network.signal? id = some signal)
    (change : Cell α Listener Text → Cell α Listener Text) :
    (network.modifyCell id change).scene =
      { network.scene with
        value := Function.update network.scene.value id
          (change signal.cell).value
        listeners := Function.update network.scene.listeners id
          (change signal.cell).listeners } := by
  have values : (network.modifyCell id change).value? =
      Function.update network.value? id (change signal.cell).value := by
    funext other
    rw [value?_modifyCell, isSignal, Function.update_apply]
    rfl
  have listeners : (network.modifyCell id change).listeners =
      Function.update network.listeners id
        (change signal.cell).listeners := by
    funext other
    rw [listeners_modifyCell, isSignal, Function.update_apply]
    rfl
  have caches : (network.modifyCell id change).cache = network.cache := by
    funext other index
    unfold cache combination?
    rw [modifyCell, signal?_modifySignal]
    split
    case isTrue same =>
      rw [same, isSignal]
      rfl
    case isFalse =>
      rfl
  unfold scene
  dsimp only
  rw [values, listeners, caches]
  congr 1
  exact size_modifySignal ..

/-- A signal that is unknown is not changed. -/
theorem modifySignal_of_none {id : SignalId}
    (unknown : network.signal? id = none) (change : Signal α → Signal α) :
    network.modifySignal id change = network := by
  unfold modifySignal
  rw [List.modify_eq_self (List.getElem?_eq_none_iff.mp unknown)]

theorem listeners_eq {id : SignalId} {signal : Signal α}
    (isSignal : network.signal? id = some signal) :
    network.scene.listeners id = signal.cell.listeners := by
  show network.listeners id = _
  rw [listeners, isSignal]
  rfl

theorem value_eq {id : SignalId} {signal : Signal α}
    (isSignal : network.signal? id = some signal) :
    network.scene.value id = signal.cell.value := by
  show network.value? id = _
  rw [value?, isSignal]
  rfl

/-- A change of a cell's listeners. -/
theorem scene_modifyListeners (network : Network α) {id : SignalId}
    (change : Cell α Listener Text → Cell α Listener Text)
    (keeps : ∀ cell, (change cell).value = cell.value)
    {listeners : List Listener}
    (changes : ∀ signal, network.signal? id = some signal →
      (change signal.cell).listeners = listeners)
    (unknown : network.signal? id = none → listeners = []) :
    (network.modifyCell id change).scene =
      network.scene.withListeners id listeners := by
  cases isSignal : network.signal? id with
  | none =>
      have same : network.scene.listeners id = listeners := by
        show network.listeners id = _
        rw [unknown isSignal, Network.listeners, isSignal]
        rfl
      rw [modifyCell, modifySignal_of_none isSignal, Scene.withListeners,
        ← same, Function.update_eq_self]
  | some signal =>
      rw [scene_modifyCell isSignal, keeps, ← value_eq isSignal,
        Function.update_eq_self, changes signal isSignal]
      rfl

theorem scene_unregister (network : Network α) (id : SignalId)
    (listener : Listener) :
    (network.modifyCell id (·.unregister listener)).scene =
      network.scene.withListeners id
        ((network.scene.listeners id).erase listener) := by
  refine scene_modifyListeners network (·.unregister listener)
    (fun _ => rfl) (fun signal isSignal => ?_) (fun unknown => ?_)
  · rw [listeners_eq isSignal]
    rfl
  · have none : network.scene.listeners id = [] := by
      show network.listeners id = _
      rw [listeners, unknown]
      rfl
    rw [none]
    rfl

theorem scene_register (network : Network α) {id : SignalId}
    (exists_signal : id < network.scene.size) (listener : Listener) :
    (network.modifyCell id (·.register listener)).scene =
      network.scene.withListeners id
        (network.scene.listeners id ++ [listener]) := by
  refine scene_modifyListeners network (·.register listener)
    (fun _ => rfl) (fun signal isSignal => ?_) (fun unknown => ?_)
  · rw [listeners_eq isSignal]
    rfl
  · exact absurd (List.getElem?_eq_none_iff.mp unknown)
      (Nat.not_le.mpr exists_signal)

/-- A change of a combination is one of its cache. -/
theorem scene_modifyCombination (network : Network α) (id : SignalId)
    (change : Combination α → Combination α) :
    (network.modifyCombination id change).scene =
      { network.scene with
        cache := Function.update network.scene.cache id fun index =>
          ((network.combination? id).map change).bind (·.latest[index]?) } := by
  have values : (network.modifyCombination id change).value? =
      network.value? := by
    funext other
    unfold value?
    rw [modifyCombination, signal?_modifySignal]
    split
    case isTrue same =>
      rw [same, Option.bind_map]
      rfl
    case isFalse =>
      rfl
  have listeners : (network.modifyCombination id change).listeners =
      network.listeners := by
    funext other
    unfold listeners
    rw [modifyCombination, signal?_modifySignal]
    split
    case isTrue same =>
      rw [same, Option.map_map]
      rfl
    case isFalse =>
      rfl
  have caches : (network.modifyCombination id change).cache =
      Function.update network.cache id fun index =>
        ((network.combination? id).map change).bind (·.latest[index]?) := by
    funext other index
    rw [Function.update_apply]
    unfold cache combination?
    rw [modifyCombination, signal?_modifySignal]
    split
    case isTrue same =>
      rw [Option.bind_map, Option.map_bind]
      rfl
    case isFalse =>
      rfl
  unfold scene
  dsimp only
  rw [values, listeners, caches]
  congr 1
  exact size_modifySignal ..

/-- Whether a combination is stale is no part of the scene. -/
theorem scene_setStale (network : Network α) (id : SignalId) (stale : Bool) :
    (network.modifyCombination id fun combination =>
      { combination with stale }).scene = network.scene := by
  have same : (fun index =>
      ((network.combination? id).map fun combination =>
        { combination with stale }).bind (·.latest[index]?)) =
          network.scene.cache id := by
    funext index
    rw [Option.bind_map]
    rfl
  rw [scene_modifyCombination, same, Function.update_eq_self]

/-- A combination that is told of a source hears it. -/
theorem scene_learn (network : Network α) (id : SignalId) (index : Nat)
    (value : α) :
    (network.modifyCombination id fun combination =>
      { combination with
        latest := combination.latest.set index (some value) }).scene =
      network.scene.hear ⟨value, .source id index⟩ := by
  have learnt : (fun other =>
      ((network.combination? id).map fun combination =>
        { combination with
          latest := combination.latest.set index (some value) }).bind
            (·.latest[other]?)) =
        Function.update (network.scene.cache id) index
          ((network.scene.cache id index).map fun _ => some value) := by
    funext other
    show _ = Function.update (network.cache id) index
      ((network.cache id index).map fun _ => some value) other
    rw [Function.update_apply, Option.bind_map]
    unfold cache
    cases network.combination? id with
    | none =>
        simp
    | some combination =>
        simp only [Function.comp_apply, Option.bind_some]
        rw [List.getElem?_set]
        by_cases same : index = other
        · simp only [same, if_true]
          by_cases inside : other < combination.latest.length
          · simp [inside]
          · simp [inside]
        · simp only [same, if_false, Ne.symm same]
  rw [scene_modifyCombination, learnt]
  rfl

end Network

/-! ## Messages of a setting -/

theorem Outcome.andThen_eq_ok {β γ : Type} {outcome : Outcome α β}
    {goOn : β → Network α → Outcome α γ} {value : γ} {next : Network α} :
    outcome.andThen goOn = ⟨.ok value, next⟩ ↔
      ∃ given middle, outcome = ⟨.ok given, middle⟩ ∧
        goOn given middle = ⟨.ok value, next⟩ := by
  obtain ⟨result, network⟩ := outcome
  unfold andThen
  cases result with
  | error failure =>
      simp
  | ok given =>
      simp

namespace Network

variable [BEq α] {network next : Network α} {value : α}

/-- How a setting ends that does not fail: the value was there already, or it is
put and the messages of the signal are told. -/
inductive IsSet (network : Network α) (id : SignalId) (value : α) :
    Bool → Network α → Prop
  | unchanged (old : id < network.scene.size →
      (network.scene.value id).any (· == value) = true) :
      IsSet network id value false network
  | changed (next : Network α) (exists_signal : id < network.scene.size)
      (new : (network.scene.value id).any (· == value) = false)
      (works : (network.scene.put id value).Works
        (network.scene.posts id value) next.scene) :
      IsSet network id value true next

/-- A setting that tells message by message. -/
def TellsMessages (set : Setting α) : Prop :=
  ∀ network id value changed next,
    set network id value = ⟨.ok changed, next⟩ →
      network.IsSet id value changed next

/-- The listener that sets a signal when it is told has told the messages of that
signal in the end. -/
theorem IsSet.exists_tells {middle : Network α} {message : Message α}
    {id : SignalId} {other : α} {changed : Bool}
    (hears : middle.scene = network.scene.hear message)
    (sets : network.scene.Sets message.listener id)
    (isSet : middle.IsSet id other changed next) :
    ∃ scene posts, network.scene.Tells message scene posts ∧
      scene.Works posts next.scene := by
  cases isSet with
  | unchanged =>
      refine ⟨_, [], .rest, ?_⟩
      rw [hears]
      exact .nil _
  | changed _ exists_signal new works =>
      rw [hears, Scene.size_hear] at exists_signal
      rw [hears, Scene.value_hear] at new
      rw [hears, Scene.posts_hear] at works
      exact ⟨_, _, .set id other sets exists_signal new, works⟩

theorem recompute_messages {set : Setting α} (tells : TellsMessages set)
    {middle : Network α} {id : SignalId} {index : Nat}
    (hears : middle.scene = network.scene.hear ⟨value, .source id index⟩)
    (done : recompute set middle id = ⟨.ok (), next⟩) :
    ∃ scene posts, network.scene.Tells ⟨value, .source id index⟩ scene posts ∧
      scene.Works posts next.scene := by
  have fresh : (middle.modifyCombination id ({ · with stale := false })).scene =
      network.scene.hear ⟨value, .source id index⟩ := by
    rw [scene_setStale, hears]
  have rests : ∀ network' : Network α,
      network'.scene = network.scene.hear ⟨value, .source id index⟩ →
      network' = next → ∃ scene posts,
        network.scene.Tells ⟨value, .source id index⟩ scene posts ∧
          scene.Works posts next.scene := by
    rintro network' heard rfl
    exact ⟨_, [], .rest, heard ▸ .nil _⟩
  unfold recompute at done
  dsimp only at done
  generalize middle.modifyCombination id ({ · with stale := false }) = reset
    at done fresh
  split at done
  case h_1 =>
    split at done
    case h_1 =>
      cases done
      exact rests _ fresh rfl
    case h_2 =>
      split at done
      case h_1 =>
        cases done
      case h_2 =>
        obtain ⟨changed, last, isSet, finish⟩ :=
          Outcome.andThen_eq_ok.mp done
        cases finish
        exact (tells _ _ _ _ _ isSet).exists_tells
          (by rw [scene_note_combine, fresh]) rfl
  case h_2 =>
    cases done
    exact rests _ fresh rfl

omit [BEq α] in
/-- Cancelling changes nothing a second time. -/
theorem cancel_eq_ok {name : Text}
    (done : network.cancel name = ⟨.ok (), next⟩) :
    ∃ subscription, network.scene.subscription name = some subscription ∧
      (subscription.active = true ∧
          next.scene = network.scene.drop name subscription ∨
        subscription.active = false ∧ next = network) := by
  unfold cancel at done
  split at done
  case h_1 =>
    cases done
  case h_2 subscription isSubscription =>
    refine ⟨subscription, isSubscription, ?_⟩
    split at done
    case isTrue active =>
      cases done
      refine .inl ⟨active, ?_⟩
      rw [scene_setSubscription, scene_unregister]
      rfl
    case isFalse inactive =>
      cases done
      exact .inr ⟨Bool.eq_false_iff.mpr inactive, rfl⟩

theorem deliver_messages {set : Setting α} (tells : TellsMessages set)
    {listener : Listener}
    (done : deliver set value network listener = ⟨.ok (), next⟩) :
    ∃ scene posts, network.scene.Tells ⟨value, listener⟩ scene posts ∧
      scene.Works posts next.scene := by
  cases listener with
  | subscriber label reaction =>
      have heard := scene_note_listener network label value reaction
      cases reaction with
      | nothing =>
          cases done
          exact ⟨_, [], .rest, .nil _⟩
      | fail =>
          cases done
      | forward name =>
          unfold deliver withName at done
          dsimp only at done
          split at done
          case h_1 id isTarget =>
            obtain ⟨changed, last, isSet, finish⟩ :=
              Outcome.andThen_eq_ok.mp done
            cases finish
            exact (tells _ _ _ _ _ isSet).exists_tells heard isTarget
          case h_2 =>
            cases done
      | cancel name =>
          obtain ⟨subscription, isSubscription, ⟨active, drops⟩ | ⟨_, same⟩⟩ :=
            cancel_eq_ok done
          · exact ⟨_, [], .cancel label name subscription rfl isSubscription
              active, drops ▸ .nil _⟩
          · exact ⟨_, [], .rest, same ▸ .nil _⟩
  | source id index =>
      have heard := scene_learn network id index value
      unfold deliver at done
      dsimp only at done
      split at done
      case isTrue =>
        cases done
        refine ⟨_, [], .rest, ?_⟩
        rw [scene_setStale, heard]
        exact .nil _
      case isFalse =>
        exact recompute_messages tells heard done

theorem deliverAll_messages {set : Setting α} (tells : TellsMessages set)
    {listeners : List Listener}
    (done : deliverAll set value network listeners = ⟨.ok (), next⟩) :
    network.scene.Works (listeners.map (⟨value, ·⟩)) next.scene := by
  induction listeners generalizing network with
  | nil =>
      cases done
      exact .nil _
  | cons listener rest inductionHypothesis =>
      obtain ⟨_, middle, first, others⟩ := Outcome.andThen_eq_ok.mp done
      obtain ⟨scene, posts, tellsFirst, works⟩ := deliver_messages tells first
      exact .cons tellsFirst (works.append (inductionHypothesis others))

/-! ### Setting a signal -/

/-- The network in which a signal has a new value, which its waiters received and
of which its listeners are not told yet. -/
def store (network : Network α) (id : SignalId) (value : α) : Network α :=
  match network.signal? id with
  | none => network
  | some signal =>
    (network.modifyCell id fun _ =>
      { signal.cell with value := some value, waiters := [] }).resolve id
        signal.cell.waiters value

omit [BEq α] in
theorem scene_store {id : SignalId} {signal : Signal α}
    (isSignal : network.signal? id = some signal) (value : α) :
    (network.store id value).scene = network.scene.put id value := by
  have kept : Function.update network.scene.listeners id
      signal.cell.listeners = network.scene.listeners := by
    rw [← listeners_eq isSignal, Function.update_eq_self]
  unfold store
  rw [isSignal]
  dsimp only
  rw [scene_resolve, scene_modifyCell isSignal]
  dsimp only
  rw [kept]
  rfl

/-- Setting a signal stores the value and tells the listeners of the signal,
unless an equal value is there. -/
theorem setWithin_succ (depth : Nat) {id : SignalId} {signal : Signal α}
    (isSignal : network.signal? id = some signal) (value : α) :
    setWithin (depth + 1) network id value =
      if signal.cell.value.any (· == value) then network.done false
      else
        (deliverAll (setWithin depth) value (network.store id value)
          signal.cell.listeners).andThen fun _ network =>
            network.done true := by
  rw [setWithin, isSignal, Option.map_some]
  dsimp only
  unfold Cell.change? store
  rw [isSignal]
  by_cases equal : signal.cell.value.any (· == value) = true
  · rw [if_pos equal, if_pos equal]
  · rw [if_neg equal, if_neg equal]

theorem setWithin_unknown (depth : Nat) {id : SignalId}
    (unknown : network.signal? id = none) (value : α) :
    setWithin (depth + 1) network id value = network.done false := by
  rw [setWithin, unknown]
  rfl

theorem setWithin_messages (depth : Nat) :
    TellsMessages (setWithin depth : Setting α) := by
  induction depth with
  | zero =>
      intro network id value changed next done
      cases done
  | succ depth inductionHypothesis =>
      intro network id value changed next done
      cases isSignal : network.signal? id with
      | none =>
          rw [setWithin_unknown depth isSignal] at done
          cases done
          refine .unchanged fun inside => ?_
          exact absurd (List.getElem?_eq_none_iff.mp isSignal)
            (Nat.not_le.mpr inside)
      | some signal =>
          rw [setWithin_succ depth isSignal] at done
          split at done
          case isTrue known =>
            cases done
            refine .unchanged fun _ => ?_
            rw [value_eq isSignal]
            exact known
          case isFalse new =>
            obtain ⟨_, middle, told, finish⟩ := Outcome.andThen_eq_ok.mp done
            cases finish
            have works := deliverAll_messages inductionHypothesis told
            rw [scene_store isSignal, ← listeners_eq isSignal] at works
            refine .changed _ ?_ ?_ works
            · exact (List.getElem?_eq_some_iff.mp isSignal).1
            · rw [value_eq isSignal]
              exact Bool.eq_false_iff.mpr new

theorem set_messages : TellsMessages (set : Setting α) :=
  setWithin_messages depthLimit

end Network

end CurrencyPad
