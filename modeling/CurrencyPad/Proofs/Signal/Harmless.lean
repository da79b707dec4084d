import CurrencyPad.Proofs.Signal.Scene

/-!
# Harmless listeners

A listener is harmless to a signal if nothing that comes of telling it sets the
signal or cancels one of its subscriptions.  Telling harmless listeners leaves the
signal as it is, and whoever listens to no other signal hears what it is told and
nothing else.
-/

namespace CurrencyPad

variable {α : Type}

namespace Scene

/-- The values that a subscriber was told, in order. -/
def heard (scene : Scene α) (label : Text) : List α :=
  ((scene.hearings.filter (·.1 = label)).map (·.2)).reverse

def valuesFor (label : Text) (messages : List (Message α)) : List α :=
  (messages.filter (·.listener.hearer = .subscriber label)).map (·.value)

/-- The listener sets the signal or cancels a subscription under one of the
names. -/
def ActsOn (scene : Scene α) (id : SignalId) (names : List Text)
    (listener : Listener) : Prop :=
  scene.Sets listener id ∨
    ∃ label, ∃ name ∈ names, listener = .subscriber label (.cancel name)

/-- Nothing that comes of telling the listener acts on the signal. -/
def IsHarmless (scene : Scene α) (id : SignalId) (names : List Text)
    (listener : Listener) : Prop :=
  ¬ scene.Leads (scene.ActsOn id names) listener

def HearsOnly (scene : Scene α) (id : SignalId) (label : Text) : Prop :=
  ∀ other, other ≠ id →
    ∀ listener ∈ scene.listeners other, listener.hearer ≠ .subscriber label

/-- Other signals have no listeners that they did not have at the start, and only
the given names are names of subscriptions to the signal. -/
structure Surrounds (start : Scene α) (id : SignalId) (names : List Text)
    (scene : Scene α) : Prop where
  size : scene.size = start.size
  find : scene.find = start.find
  listeners : ∀ other, other ≠ id →
    (scene.listeners other).Sublist (start.listeners other)
  subscription : ∀ name subscription, name ∉ names →
    scene.subscription name = some subscription → subscription.signal ≠ id

/-- The signal and its subscriptions are left as they are. -/
structure Spares (id : SignalId) (names : List Text) (scene next : Scene α) :
    Prop where
  value : next.value id = scene.value id
  listeners : next.listeners id = scene.listeners id
  subscription : ∀ name ∈ names,
    next.subscription name = scene.subscription name

variable {start scene middle next : Scene α} {id : SignalId}
  {names : List Text} {message : Message α} {posts rest : List (Message α)}
  {label : Text}

theorem Spares.trans (first : Spares id names scene middle)
    (second : Spares id names middle next) : Spares id names scene next :=
  ⟨second.value.trans first.value, second.listeners.trans first.listeners,
    fun name member =>
      (second.subscription name member).trans (first.subscription name member)⟩

theorem heard_hear (scene : Scene α) (message : Message α) (label : Text) :
    (scene.hear message).heard label =
      scene.heard label ++ valuesFor label [message] := by
  obtain ⟨value, listener⟩ := message
  unfold heard valuesFor
  cases listener with
  | subscriber name reaction =>
      show (List.map _ (List.filter _ ((name, value) :: scene.hearings))).reverse
        = _
      by_cases same : name = label
      · simp [same, Listener.hearer]
      · simp [same, Listener.hearer]
  | source combination index =>
      simp [hear, Listener.hearer]

theorem valuesFor_append (label : Text) (messages others : List (Message α)) :
    valuesFor label (messages ++ others) =
      valuesFor label messages ++ valuesFor label others := by
  rw [valuesFor, List.filter_append, List.map_append]
  rfl

theorem valuesFor_eq_nil {messages : List (Message α)}
    (none : ∀ message ∈ messages,
      message.listener.hearer ≠ .subscriber label) :
    valuesFor label messages = [] := by
  unfold valuesFor
  rw [List.map_eq_nil_iff, List.filter_eq_nil_iff]
  exact fun message member => by simpa using none message member

theorem spares_hear (id : SignalId) (names : List Text) (scene : Scene α)
    (message : Message α) : Spares id names scene (scene.hear message) := by
  unfold hear
  split <;> exact ⟨rfl, rfl, fun _ _ => rfl⟩

namespace Surrounds

theorem hear (surrounds : start.Surrounds id names scene)
    (message : Message α) :
    start.Surrounds id names (scene.hear message) := by
  obtain ⟨size, find, listeners, subscription⟩ := surrounds
  unfold Scene.hear
  split <;> exact ⟨size, find, listeners, subscription⟩

theorem put (surrounds : start.Surrounds id names scene) (other : SignalId)
    (value : α) : start.Surrounds id names (scene.put other value) :=
  ⟨surrounds.size, surrounds.find, surrounds.listeners, surrounds.subscription⟩

/-- The signal itself may have any listeners. -/
theorem withListeners (surrounds : start.Surrounds id names scene)
    {other : SignalId} {listeners : List Listener}
    (fewer : other ≠ id → listeners.Sublist (start.listeners other)) :
    start.Surrounds id names (scene.withListeners other listeners) := by
  refine ⟨surrounds.size, surrounds.find, fun signal differs => ?_,
    surrounds.subscription⟩
  show (Function.update scene.listeners other listeners signal).Sublist _
  rw [Function.update_apply]
  split
  case isTrue same =>
    subst same
    exact fewer differs
  case isFalse =>
    exact surrounds.listeners signal differs

/-- A name of the signal itself may stand for any subscription. -/
theorem withSubscription (surrounds : start.Surrounds id names scene)
    {name : Text} {subscription : Subscription}
    (foreign : name ∉ names → subscription.signal ≠ id) :
    start.Surrounds id names (scene.withSubscription name subscription) := by
  refine ⟨surrounds.size, surrounds.find, surrounds.listeners,
    fun other found notOwn isFound => ?_⟩
  change Function.update scene.subscription name _ other = _ at isFound
  rw [Function.update_apply] at isFound
  split at isFound
  case isTrue same =>
    cases isFound
    exact foreign (same ▸ notOwn)
  case isFalse =>
    exact surrounds.subscription other found notOwn isFound

theorem drop (surrounds : start.Surrounds id names scene) {name : Text}
    {subscription : Subscription}
    (foreign : name ∉ names → subscription.signal ≠ id) :
    start.Surrounds id names (scene.drop name subscription) := by
  have fewer : subscription.signal ≠ id →
      ((scene.listeners subscription.signal).erase
        subscription.listener).Sublist (start.listeners subscription.signal) :=
    fun differs =>
      List.erase_sublist.trans (surrounds.listeners _ differs)
  exact (surrounds.withListeners fewer).withSubscription foreign

end Surrounds

theorem spares_drop {name : Text} (notOwn : name ∉ names)
    {subscription : Subscription} (foreign : subscription.signal ≠ id) :
    Spares id names scene (scene.drop name subscription) := by
  refine ⟨rfl, Function.update_of_ne (Ne.symm foreign) .., ?_⟩
  intro other member
  refine Function.update_of_ne ?_ ..
  rintro rfl
  exact notOwn member

variable [BEq α]

/-- What a harmless listener does when it is told, and that only harmless
listeners of other signals are told in consequence. -/
theorem Tells.harmless (tells : scene.Tells message middle posts)
    (surrounds : start.Surrounds id names scene)
    (isHarmless : start.IsHarmless id names message.listener) :
    start.Surrounds id names middle ∧ Spares id names scene middle ∧
      (∀ post ∈ posts, start.IsHarmless id names post.listener ∧
        ∃ other, other ≠ id ∧ post.listener ∈ start.listeners other) ∧
      ∀ label, middle.heard label =
        scene.heard label ++ valuesFor label [message] := by
  have heard := surrounds.hear message
  have spared := spares_hear id names scene message
  have told := heard_hear scene message
  cases tells with
  | rest =>
      exact ⟨heard, spared, nofun, told⟩
  | set other value sets =>
      have startSets : start.Sets message.listener other := by
        unfold Sets at sets ⊢
        rwa [← surrounds.find]
      have differs : other ≠ id := by
        rintro rfl
        exact isHarmless (.itself (.inl startSets))
      refine ⟨heard.put other value,
        spared.trans ⟨Function.update_of_ne (Ne.symm differs) .., rfl,
          fun _ _ => rfl⟩, fun post posted => ?_, told⟩
      obtain ⟨listener, member, rfl⟩ := List.mem_map.mp posted
      have known := (surrounds.listeners other differs).subset member
      exact ⟨fun leads => isHarmless (.onward startSets known leads),
        other, differs, known⟩
  | cancel label name subscription cancels isSubscription =>
      have notOwn : name ∉ names := fun own =>
        isHarmless (.itself (.inr ⟨label, name, own, cancels⟩))
      have foreign := surrounds.subscription name subscription notOwn
        isSubscription
      exact ⟨heard.drop fun _ => foreign,
        spared.trans (spares_drop notOwn foreign), nofun, told⟩

theorem Works.harmless {messages : List (Message α)}
    (works : scene.Works messages next)
    (surrounds : start.Surrounds id names scene)
    (areHarmless : ∀ message ∈ messages,
      start.IsHarmless id names message.listener) :
    start.Surrounds id names next ∧ Spares id names scene next ∧
      ∀ label, start.HearsOnly id label →
        next.heard label = scene.heard label ++ valuesFor label messages := by
  induction works with
  | nil scene =>
      refine ⟨surrounds, ⟨rfl, rfl, fun _ _ => rfl⟩, fun label _ => ?_⟩
      exact (List.append_nil _).symm
  | @cons scene middle last message posts rest tells _ inductionHypothesis =>
      rw [List.forall_mem_cons] at areHarmless
      obtain ⟨middleSurrounds, firstSpares, postsHarmless, firstHeard⟩ :=
        tells.harmless surrounds areHarmless.1
      obtain ⟨lastSurrounds, restSpares, restHeard⟩ :=
        inductionHypothesis middleSurrounds fun message member =>
          (List.mem_append.mp member).elim
            (fun posted => (postsHarmless message posted).1)
            (fun later => areHarmless.2 message later)
      refine ⟨lastSurrounds, firstSpares.trans restSpares,
        fun label hearsOnly => ?_⟩
      have notPosted : valuesFor label posts = [] :=
        valuesFor_eq_nil fun post posted => by
          obtain ⟨-, other, differs, member⟩ := postsHarmless post posted
          exact hearsOnly other differs _ member
      calc last.heard label
          = middle.heard label ++ valuesFor label (posts ++ rest) :=
            restHeard label hearsOnly
        _ = scene.heard label ++ valuesFor label [message] ++
              valuesFor label rest := by
            rw [firstHeard, valuesFor_append, notPosted, List.nil_append]
        _ = scene.heard label ++ valuesFor label (message :: rest) := by
            rw [List.append_assoc, ← valuesFor_append]
            rfl

end Scene

end CurrencyPad
