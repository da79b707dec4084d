import CurrencyPad.Proofs.Signal.Harmless
import CurrencyPad.Proofs.Signal.Ledger

/-!
# Subscriptions to a signal

As long as listeners are harmless, the listeners of a signal are those with
subscriptions in force, each as often as it has some, and a subscriber is told of
every change of the signal once for each of them.
-/

namespace CurrencyPad

variable {α : Type}

namespace Subscriptions

variable {ledger : List Handle} {name label : Text} {handle : Handle}

section Runs

variable [BEq α]

def perform (id : SignalId) (network : Network α) : Step α → Outcome α Unit
  | .subscribe name listener replay =>
    network.subscribe name id listener replay
  | .cancel name => network.cancel name
  | .set value =>
    (network.set id value).andThen fun _ network => network.done ()

def run (id : SignalId) (network : Network α) :
    List (Step α) → Outcome α Unit
  | [] => network.done ()
  | step :: rest =>
    (perform id network step).andThen fun _ network => run id network rest

end Runs

/-! ## What the ledger says of a network -/

/-- The listeners of the signal are those with subscriptions in force, and the
network has each subscription as the ledger has it. -/
structure Stands (start : Scene α) (id : SignalId) (own : List Text)
    (ledger : List Handle) (scene : Scene α) : Prop where
  surrounds : start.Surrounds id own scene
  listeners : (scene.listeners id).Perm (actives ledger)
  harmless : ∀ handle ∈ ledger, start.IsHarmless id own handle.listener
  handles : ∀ name handle, latest? ledger name = some handle →
    name ∈ own ∧
      scene.subscription name = some ⟨id, handle.listener, handle.active⟩

variable {start scene next : Scene α} {id : SignalId} {own : List Text}

/-- What holds of every listener of the ledger holds of those of the signal. -/
theorem Stands.forall_listeners (stands : Stands start id own ledger scene)
    {holds : Listener → Prop} (all : ∀ handle ∈ ledger, holds handle.listener) :
    ∀ listener ∈ scene.listeners id, holds listener := by
  intro listener member
  obtain ⟨handle, isHandle, rfl⟩ :=
    List.mem_map.mp (stands.listeners.subset member)
  exact all handle (List.mem_filter.mp isHandle).1

/-- What spares the signal keeps its ledger. -/
theorem Stands.of_spares (stands : Stands start id own ledger scene)
    (surrounds : start.Surrounds id own next)
    (spares : Scene.Spares id own scene next) :
    Stands start id own ledger next := by
  refine ⟨surrounds, ?_, stands.harmless, fun name handle isLatest => ?_⟩
  · rw [spares.listeners]
    exact stands.listeners
  · obtain ⟨member, isHandle⟩ := stands.handles name handle isLatest
    exact ⟨member, (spares.subscription name member).trans isHandle⟩

theorem valuesFor_posts (label : Text) (scene : Scene α) (id : SignalId)
    (value : α) :
    Scene.valuesFor label (scene.posts id value) =
      List.replicate
        ((scene.listeners id).countP (·.hearer = .subscriber label)) value := by
  unfold Scene.valuesFor Scene.posts
  rw [List.filter_map, List.map_map, List.countP_eq_length_filter]
  exact List.map_const' ..

/-! ## Steps -/

section Steps

variable {network last : Network α}

/-- The first cancellation removes one occurrence of the listener, and the next
one nothing. -/
theorem cancel_of_stands (stands : Stands start id own ledger network.scene)
    (isLatest : latest? ledger name = some handle)
    (done : network.cancel name = ⟨.ok (), last⟩) :
    (handle.active = true →
        last.scene =
          network.scene.drop name ⟨id, handle.listener, true⟩) ∧
      (handle.active = false → last = network) := by
  obtain ⟨_, isHandle⟩ := stands.handles name handle isLatest
  obtain ⟨subscription, isSubscription, cancelled⟩ :=
    Network.cancel_eq_ok done
  rw [isHandle] at isSubscription
  cases isSubscription
  dsimp only at cancelled
  constructor
  · intro active
    rw [active] at cancelled
    exact (cancelled.resolve_right fun inactive => nomatch inactive.1).2
  · intro inactive
    rw [inactive] at cancelled
    exact (cancelled.resolve_left fun active => nomatch active.1).2

theorem Stands.drop (stands : Stands start id own ledger scene)
    (isLatest : latest? ledger name = some handle)
    (active : handle.active = true) :
    Stands start id own (close name ledger)
      (scene.drop name ⟨id, handle.listener, true⟩) := by
  obtain ⟨surrounds, listeners, harmless, handles⟩ := stands
  obtain ⟨isOwn, _⟩ := handles name handle isLatest
  refine ⟨surrounds.drop fun notOwn => absurd isOwn notOwn, ?_,
    forall_close harmless, fun other found isFound => ?_⟩
  · have removed := (actives_close isLatest).1 active
    have dropped : (scene.drop name
        ⟨id, handle.listener, true⟩).listeners id =
          (scene.listeners id).erase handle.listener :=
      Function.update_self ..
    rw [dropped]
    have erased := (listeners.trans removed).erase handle.listener
    rwa [List.erase_cons_head] at erased
  · rw [latest?_close] at isFound
    have subscriptions : (scene.drop name
        ⟨id, handle.listener, true⟩).subscription =
          Function.update scene.subscription name
            (some ⟨id, handle.listener, false⟩) := rfl
    rw [subscriptions, Function.update_apply]
    split at isFound
    case isTrue same =>
      rw [isLatest] at isFound
      cases isFound
      rw [if_pos same, same]
      exact ⟨isOwn, rfl⟩
    case isFalse differs =>
      rw [if_neg differs]
      exact handles other found isFound

variable [BEq α]

/-- A step keeps the account, and tells who listens to no other signal what the
ledger says. -/
structure Keeps (start : Scene α) (id : SignalId) (own : List Text)
    (ledger : List Handle) (network : Network α) (step : Step α)
    (last : Network α) : Prop where
  stands : Stands start id own (step.after ledger) last.scene
  value : last.scene.value id = step.value (network.scene.value id)
  heard : ∀ label, start.HearsOnly id label →
    last.scene.heard label =
      network.scene.heard label ++
        step.told label (network.scene.value id) ledger

theorem keeps_set (stands : Stands start id own ledger network.scene)
    (exists_signal : id < network.scene.size) {value : α}
    (done : perform id network (.set value) = ⟨.ok (), last⟩) :
    Keeps start id own ledger network (.set value) last := by
  obtain ⟨changed, middle, isSet, finish⟩ := Outcome.andThen_eq_ok.mp done
  cases finish
  cases Network.set_messages _ _ _ _ _ isSet with
  | unchanged old =>
      refine ⟨stands, ?_, fun label _ => ?_⟩
      · exact (if_pos (old exists_signal)).symm
      · rw [Step.told, if_pos (old exists_signal), List.append_nil]
  | changed _ _ new works =>
      have isNew : ¬ (network.scene.value id).any (· == value) = true := by
        rw [new]
        exact Bool.false_ne_true
      have put : Stands start id own ledger (network.scene.put id value) :=
        ⟨stands.surrounds.put id value, stands.listeners, stands.harmless,
          stands.handles⟩
      obtain ⟨surrounds, spares, heard⟩ := works.harmless put.surrounds
        fun message posted => stands.forall_listeners stands.harmless _
          (Scene.mem_posts.mp posted).2
      refine ⟨put.of_spares surrounds spares, ?_, fun label hearsOnly => ?_⟩
      · rw [spares.value, Step.value, if_neg isNew]
        exact Function.update_self ..
      · rw [heard label hearsOnly, valuesFor_posts,
          stands.listeners.countP_eq, Step.told, if_neg isNew]
        rfl

theorem keeps_cancel (stands : Stands start id own ledger network.scene)
    (known : (latest? ledger name).isSome = true)
    (done : network.cancel name = ⟨.ok (), last⟩) :
    Keeps start id own ledger network (.cancel name) last := by
  obtain ⟨handle, isLatest⟩ := Option.isSome_iff_exists.mp known
  obtain ⟨removes, keeps⟩ := cancel_of_stands stands isLatest done
  by_cases active : handle.active = true
  · have dropped := stands.drop isLatest active
    rw [← removes active] at dropped
    refine ⟨dropped, ?_, fun label _ => ?_⟩
    · rw [removes active]
      rfl
    · rw [removes active, Step.told, List.append_nil]
      rfl
  · have inactive := Bool.eq_false_iff.mpr active
    obtain rfl := keeps inactive
    refine ⟨?_, rfl, fun label _ => (List.append_nil _).symm⟩
    rw [Step.after, (actives_close isLatest).2 inactive]
    exact stands

/-- A new listener is told the value at its replay, if it asks for one. -/
theorem spares_replay {more middle : Network α} {listener : Listener}
    {replay : Bool} {current : Option α}
    (surrounds : start.Surrounds id own more.scene)
    (isHarmless : start.IsHarmless id own listener)
    (hears : (match replay, current with
      | true, some value => Network.deliver Network.set value more listener
      | _, _ => more.done ()) = ⟨.ok (), middle⟩) :
    start.Surrounds id own middle.scene ∧
      Scene.Spares id own more.scene middle.scene ∧
      ∀ label, start.HearsOnly id label →
        middle.scene.heard label = more.scene.heard label ++
          if replay = true ∧ listener.hearer = .subscriber label then
            current.toList
          else [] := by
  split at hears
  case h_1 value =>
    obtain ⟨scene, posts, tells, works⟩ :=
      Network.deliver_messages Network.set_messages hears
    have told : more.scene.Works [⟨value, listener⟩] middle.scene := by
      rw [← List.append_nil posts] at works
      exact .cons tells works
    obtain ⟨middleSurrounds, spares, heard⟩ := told.harmless surrounds
      (List.forall_mem_singleton.mpr isHarmless)
    refine ⟨middleSurrounds, spares, fun label hearsOnly => ?_⟩
    rw [heard label hearsOnly]
    by_cases hears : listener.hearer = .subscriber label
    · simp [Scene.valuesFor, hears]
    · simp [Scene.valuesFor, hears]
  case h_2 noReplay =>
    cases hears
    refine ⟨surrounds, ⟨rfl, rfl, fun _ _ => rfl⟩, fun label _ => ?_⟩
    have nothing : (if replay = true ∧ listener.hearer = .subscriber label
        then current.toList else []) = [] := by
      rw [ite_eq_right_iff]
      rintro ⟨rfl, _⟩
      cases current with
      | none =>
          rfl
      | some value =>
          exact absurd rfl (noReplay value rfl)
    rw [nothing, List.append_nil]

theorem keeps_subscribe (stands : Stands start id own ledger network.scene)
    (exists_signal : id < network.scene.size) {listener : Listener}
    {replay : Bool} (isOwn : name ∈ own)
    (isHarmless : start.IsHarmless id own listener)
    (done : network.subscribe name id listener replay = ⟨.ok (), last⟩) :
    Keeps start id own ledger network (.subscribe name listener replay) last := by
  unfold Network.subscribe at done
  obtain ⟨_, middle, hears, finish⟩ := Outcome.andThen_eq_ok.mp done
  cases finish
  obtain ⟨surrounds, listeners, harmless, handles⟩ := stands
  have registered := Network.scene_register network exists_signal listener
  generalize network.modifyCell id (·.register listener) = more
    at registered hears
  have moreSurrounds : start.Surrounds id own more.scene := by
    rw [registered]
    exact surrounds.withListeners fun differs => absurd rfl differs
  obtain ⟨middleSurrounds, spares, heard⟩ :=
    spares_replay moreSurrounds isHarmless hears
  have moreListeners : middle.scene.listeners id =
      network.scene.listeners id ++ [listener] := by
    rw [spares.listeners, registered]
    exact Function.update_self ..
  have subscriptions : ∀ other ∈ own,
      middle.scene.subscription other = network.scene.subscription other := by
    intro other member
    rw [spares.subscription other member, registered]
    rfl
  refine ⟨?_, ?_, fun label hearsOnly => ?_⟩
  · rw [Network.scene_setSubscription]
    refine ⟨middleSurrounds.withSubscription fun notOwn => absurd isOwn notOwn,
      ?_, List.forall_mem_cons.mpr ⟨isHarmless, harmless⟩,
      fun other handle isLatest => ?_⟩
    · show (middle.scene.listeners id).Perm _
      rw [moreListeners]
      exact (List.perm_append_singleton ..).trans (listeners.cons listener)
    · show other ∈ own ∧
        Function.update middle.scene.subscription name _ other = _
      unfold latest? Step.after at isLatest
      rw [List.find?_cons] at isLatest
      split at isLatest
      case h_1 same =>
        cases isLatest
        obtain rfl := of_decide_eq_true same
        exact ⟨isOwn, Function.update_self ..⟩
      case h_2 differs =>
        have otherNe : other ≠ name :=
          Ne.symm (of_decide_eq_false differs)
        obtain ⟨member, isHandle⟩ := handles other handle isLatest
        rw [Function.update_of_ne otherNe, subscriptions other member]
        exact ⟨member, isHandle⟩
  · rw [Network.scene_setSubscription]
    show middle.scene.value id = _
    rw [spares.value, registered]
    rfl
  · rw [Network.scene_setSubscription]
    show middle.scene.heard label = _
    rw [heard label hearsOnly, registered]
    rfl

theorem keeps_perform (stands : Stands start id own ledger network.scene)
    (exists_signal : id < start.size) {step : Step α} {rest : List (Step α)}
    (areOwn : ∀ name ∈ names (step :: rest), name ∈ own)
    (areHarmless : ∀ listener ∈ listeners (step :: rest),
      start.IsHarmless id own listener)
    (cancelsOwn : CancelsOwn ledger (step :: rest))
    (done : perform id network step = ⟨.ok (), last⟩) :
    Keeps start id own ledger network step last := by
  rw [← stands.surrounds.size] at exists_signal
  cases step with
  | subscribe name listener replay =>
      exact keeps_subscribe stands exists_signal
        (areOwn name List.mem_cons_self)
        (areHarmless listener List.mem_cons_self) done
  | cancel name =>
      exact keeps_cancel stands (cancelsOwn.1 name rfl) done
  | set value =>
      exact keeps_set stands exists_signal done

/-- The account is kept through every run that does not fail. -/
theorem stands_run (exists_signal : id < start.size) {steps : List (Step α)}
    (stands : Stands start id own ledger network.scene)
    (areOwn : ∀ name ∈ names steps, name ∈ own)
    (areHarmless : ∀ listener ∈ listeners steps,
      start.IsHarmless id own listener)
    (cancelsOwn : CancelsOwn ledger steps)
    (done : run id network steps = ⟨.ok (), last⟩) :
    Stands start id own (follow ledger steps) last.scene ∧
      ∀ label, start.HearsOnly id label →
        last.scene.heard label = network.scene.heard label ++
          told label (network.scene.value id) ledger steps := by
  induction steps generalizing network ledger with
  | nil =>
      cases done
      exact ⟨stands, fun label _ => (List.append_nil _).symm⟩
  | cons step rest inductionHypothesis =>
      obtain ⟨_, middle, first, others⟩ := Outcome.andThen_eq_ok.mp done
      have keeps := keeps_perform stands exists_signal areOwn areHarmless
        cancelsOwn first
      obtain ⟨lastStands, heard⟩ := inductionHypothesis keeps.stands
        (fun name member => areOwn name (mem_names_cons member))
        (fun listener member =>
          areHarmless listener (mem_listeners_cons member))
        cancelsOwn.2 others
      refine ⟨lastStands, fun label hearsOnly => ?_⟩
      rw [heard label hearsOnly, keeps.heard label hearsOnly, keeps.value,
        List.append_assoc]
      rfl

end Steps

/-! ## Accounts -/

section Accounts

variable {network next last : Network α}

theorem exists_cancel (stands : Stands start id own ledger network.scene)
    (isLatest : latest? ledger name = some handle) :
    ∃ last, network.cancel name = ⟨.ok (), last⟩ := by
  obtain ⟨_, isHandle⟩ := stands.handles name handle isLatest
  have isSubscription : network.subscriptions.get? name =
      some ⟨id, handle.listener, handle.active⟩ := isHandle
  unfold Network.cancel
  rw [isSubscription]
  dsimp only
  split
  · exact ⟨_, rfl⟩
  · exact ⟨_, rfl⟩

/-- The signal is known and has neither listeners nor subscriptions. -/
structure IsFresh (network : Network α) (id : SignalId) : Prop where
  exists_signal : id < network.signals.length
  listeners : network.listeners id = []
  subscription : ∀ name subscription,
    network.subscriptions.get? name = some subscription →
      subscription.signal ≠ id

/-- At the start the ledger is empty. -/
theorem IsFresh.stands (isFresh : IsFresh network id) (own : List Text) :
    Stands network.scene id own [] network.scene := by
  refine ⟨⟨rfl, rfl, fun _ _ => .refl _,
    fun name subscription _ found => isFresh.subscription name _ found⟩,
    ?_, nofun, nofun⟩
  have none : network.scene.listeners id = [] := isFresh.listeners
  rw [none]
  exact .nil

variable [BEq α]

theorem run_append {before after : List (Step α)}
    (done : run id network (before ++ after) = ⟨.ok (), last⟩) :
    ∃ middle, run id network before = ⟨.ok (), middle⟩ ∧
      run id middle after = ⟨.ok (), last⟩ := by
  induction before generalizing network with
  | nil =>
      exact ⟨network, rfl, done⟩
  | cons step rest inductionHypothesis =>
      obtain ⟨_, middle, first, others⟩ := Outcome.andThen_eq_ok.mp done
      obtain ⟨final, restDone, afterDone⟩ := inductionHypothesis others
      refine ⟨final, ?_, afterDone⟩
      exact Outcome.andThen_eq_ok.mpr ⟨_, middle, first, restDone⟩

/-- The network is as the ledger of some steps says. -/
structure Accounts (id : SignalId) (network : Network α) (steps : List (Step α))
    (next : Network α) : Prop where
  /-- A listener is registered as often as it has subscriptions in force. -/
  counts : ∀ listener,
    (next.listeners id).count listener =
      (actives (follow [] steps)).count listener
  /-- A subscription that is in force is cancelled by removing its listener once;
  cancelling it again, or one that is not in force, changes nothing. -/
  cancels : ∀ name handle, latest? (follow [] steps) name = some handle →
    ∃ last, next.cancel name = ⟨.ok (), last⟩ ∧
      last.cancel name = ⟨.ok (), last⟩ ∧
      (handle.active = true →
        handle.listener ∈ next.listeners id ∧
          last.listeners id = (next.listeners id).erase handle.listener) ∧
      (handle.active = false → last = next)
  /-- While a subscriber of this signal has the one subscription that was made
  last, it is told the value at its replay and then of every change, and never of
  one value twice in a row. -/
  hears : ∀ label, network.scene.HearsOnly id label →
    ∀ before name listener replay after,
      steps = before ++ .subscribe name listener replay :: after →
      listener.hearer = .subscriber label →
      activesOf label (follow [] before) = 0 →
      (∀ other ∈ listeners after, other.hearer ≠ .subscriber label) →
      activesOf label (follow [] steps) = 1 →
        ∃ middle since, run id network before = ⟨.ok (), middle⟩ ∧
          next.scene.heard label = middle.scene.heard label ++ since ∧
          since = (if replay then (middle.value? id).toList else []) ++
            changes (middle.value? id) (values after) ∧
          since.IsChain fun earlier later => (earlier == later) = false
  /-- While it has none, it is told nothing. -/
  hearsNothing : ∀ label, network.scene.HearsOnly id label →
    ∀ before after, steps = before ++ after →
      activesOf label (follow [] before) = 0 →
      (∀ other ∈ listeners after, other.hearer ≠ .subscriber label) →
        ∃ middle, run id network before = ⟨.ok (), middle⟩ ∧
          next.scene.heard label = middle.scene.heard label

/-- A run can be taken up in its middle. -/
theorem exists_middle {before after : List (Step α)}
    (isFresh : IsFresh network id)
    (areHarmless : ∀ listener ∈ listeners (before ++ after),
      network.scene.IsHarmless id (names (before ++ after)) listener)
    (cancelsOwn : CancelsOwn [] (before ++ after))
    (done : run id network (before ++ after) = ⟨.ok (), next⟩) :
    ∃ middle, run id network before = ⟨.ok (), middle⟩ ∧
      ∀ label, network.scene.HearsOnly id label →
        next.scene.heard label = middle.scene.heard label ++
          told label (middle.value? id) (follow [] before) after := by
  obtain ⟨middle, first, others⟩ := run_append done
  obtain ⟨ownBefore, ownAfter⟩ := cancelsOwn_append cancelsOwn
  have namesEq : names (before ++ after) = names before ++ names after :=
    List.filterMap_append
  have listenersEq : listeners (before ++ after) =
      listeners before ++ listeners after :=
    List.filterMap_append
  rw [listenersEq, List.forall_mem_append] at areHarmless
  obtain ⟨stands, -⟩ := stands_run isFresh.exists_signal (isFresh.stands _)
    (fun name member => namesEq ▸ List.mem_append_left _ member)
    areHarmless.1 ownBefore first
  obtain ⟨-, heard⟩ := stands_run isFresh.exists_signal stands
    (fun name member => namesEq ▸ List.mem_append_right _ member)
    areHarmless.2 ownAfter others
  exact ⟨middle, first, heard⟩

theorem cancels_of_stands (stands : Stands start id own ledger network.scene)
    (isLatest : latest? ledger name = some handle) :
    ∃ last, network.cancel name = ⟨.ok (), last⟩ ∧
      last.cancel name = ⟨.ok (), last⟩ ∧
      (handle.active = true →
        handle.listener ∈ network.listeners id ∧
          last.listeners id =
            (network.listeners id).erase handle.listener) ∧
      (handle.active = false → last = network) := by
  obtain ⟨last, done⟩ := exists_cancel stands isLatest
  obtain ⟨removes, keeps⟩ := cancel_of_stands stands isLatest done
  refine ⟨last, done, ?_, fun active => ⟨?_, ?_⟩, keeps⟩
  · have after := (keeps_cancel stands (by rw [isLatest]; rfl) done).stands
    have closed : latest? (close name ledger) name =
        some { handle with active := false } := by
      rw [latest?_close, if_pos rfl, isLatest]
      rfl
    obtain ⟨again, doneAgain⟩ := exists_cancel after closed
    rw [doneAgain, (cancel_of_stands after closed doneAgain).2 rfl]
  · refine (stands.listeners.mem_iff).mpr ?_
    exact ((actives_close isLatest).1 active).mem_iff.mpr List.mem_cons_self
  · show last.scene.listeners id = _
    rw [removes active]
    exact Function.update_self ..

theorem accounts_of_done {steps : List (Step α)} (isFresh : IsFresh network id)
    (areHarmless : ∀ listener ∈ listeners steps,
      network.scene.IsHarmless id (names steps) listener)
    (cancelsOwn : CancelsOwn [] steps)
    (done : run id network steps = ⟨.ok (), next⟩) :
    Accounts id network steps next := by
  obtain ⟨stands, -⟩ := stands_run isFresh.exists_signal (isFresh.stands _)
    (fun _ member => member) areHarmless cancelsOwn done
  refine ⟨fun listener => stands.listeners.count_eq listener,
    fun name handle isLatest => cancels_of_stands stands isLatest, ?_, ?_⟩
  · intro label hearsOnly before name listener replay after split isHearer none
      noNew single
    subst split
    obtain ⟨middle, first, heard⟩ :=
      exists_middle isFresh areHarmless cancelsOwn done
    rw [follow_append] at single
    have one : activesOf label
        (⟨name, listener, true⟩ :: follow [] before) = 1 := by
      rw [activesOf_subscribe_self isHearer, none]
    have since : told label (middle.value? id) (follow [] before)
        (.subscribe name listener replay :: after) =
          (if replay then (middle.value? id).toList else []) ++
            changes (middle.value? id) (values after) := by
      have rest := told_of_single (middle.value? id) noNew one single
      rw [← rest]
      simp [told, Step.told, Step.after, Step.value, isHearer]
    refine ⟨middle, _, first, ?_, rfl, ?_⟩
    · rw [heard label hearsOnly, since]
    · have chain := isChain_changes (middle.value? id) (values after)
      cases replay with
      | true =>
          exact chain
      | false =>
          exact chain.right_of_append
  · intro label hearsOnly before after split none noNew
    subst split
    obtain ⟨middle, first, heard⟩ :=
      exists_middle isFresh areHarmless cancelsOwn done
    refine ⟨middle, first, ?_⟩
    rw [heard label hearsOnly, told_of_none _ noNew none, List.append_nil]

/-! ## Listeners that do nothing -/

omit [BEq α] in
theorem deliverAll_nothing (set : Network.Setting α) (value : α)
    {all : List Listener}
    (quiet : ∀ listener ∈ all, ∃ label, listener = .subscriber label .nothing)
    (network : Network α) :
    ∃ next, Network.deliverAll set value network all = ⟨.ok (), next⟩ := by
  induction all generalizing network with
  | nil =>
      exact ⟨network, rfl⟩
  | cons listener rest inductionHypothesis =>
      rw [List.forall_mem_cons] at quiet
      obtain ⟨⟨label, rfl⟩, others⟩ := quiet
      exact inductionHypothesis others _

theorem set_nothing {value : α}
    (quiet : ∀ listener ∈ network.listeners id,
      ∃ label, listener = .subscriber label .nothing) :
    ∃ changed next, network.set id value = ⟨.ok changed, next⟩ := by
  unfold Network.set Network.depthLimit
  rw [Network.setWithin]
  split
  case h_1 =>
    exact ⟨_, _, rfl⟩
  case h_2 before isCell =>
    obtain ⟨signal, isSignal, rfl⟩ := Option.map_eq_some_iff.mp isCell
    split
    case h_1 =>
      exact ⟨_, _, rfl⟩
    case h_2 =>
      have listeners : network.listeners id = signal.cell.listeners :=
        Network.listeners_eq isSignal
      rw [listeners] at quiet
      obtain ⟨next, told⟩ := deliverAll_nothing (Network.setWithin 999) value
        quiet _
      exact ⟨true, next, Outcome.andThen_eq_ok.mpr ⟨_, _, told, rfl⟩⟩

theorem perform_nothing (stands : Stands start id own ledger network.scene)
    (quietLedger : ∀ handle ∈ ledger,
      ∃ label, handle.listener = .subscriber label .nothing)
    {step : Step α} {rest : List (Step α)}
    (quiet : ∀ listener ∈ listeners (step :: rest),
      ∃ label, listener = .subscriber label .nothing)
    (cancelsOwn : CancelsOwn ledger (step :: rest)) :
    ∃ next, perform id network step = ⟨.ok (), next⟩ := by
  cases step with
  | subscribe name listener replay =>
      obtain ⟨label, rfl⟩ := quiet listener List.mem_cons_self
      unfold perform Network.subscribe
      dsimp only
      split
      · exact ⟨_, rfl⟩
      · exact ⟨_, rfl⟩
  | cancel name =>
      obtain ⟨handle, isLatest⟩ :=
        Option.isSome_iff_exists.mp (cancelsOwn.1 name rfl)
      exact exists_cancel stands isLatest
  | set value =>
      obtain ⟨changed, next, isSet⟩ :=
        set_nothing (stands.forall_listeners quietLedger)
      exact ⟨next, Outcome.andThen_eq_ok.mpr ⟨_, _, isSet, rfl⟩⟩

/-- Listeners that do nothing let every step succeed. -/
theorem run_nothing (exists_signal : id < start.size) {steps : List (Step α)}
    (stands : Stands start id own ledger network.scene)
    (quietLedger : ∀ handle ∈ ledger,
      ∃ label, handle.listener = .subscriber label .nothing)
    (quiet : ∀ listener ∈ listeners steps,
      ∃ label, listener = .subscriber label .nothing)
    (areOwn : ∀ name ∈ names steps, name ∈ own)
    (areHarmless : ∀ listener ∈ listeners steps,
      start.IsHarmless id own listener)
    (cancelsOwn : CancelsOwn ledger steps) :
    ∃ next, run id network steps = ⟨.ok (), next⟩ := by
  induction steps generalizing network ledger with
  | nil =>
      exact ⟨network, rfl⟩
  | cons step rest inductionHypothesis =>
      obtain ⟨middle, first⟩ := perform_nothing stands quietLedger quiet
        cancelsOwn
      have keeps := keeps_perform stands exists_signal areOwn areHarmless
        cancelsOwn first
      obtain ⟨next, others⟩ := inductionHypothesis keeps.stands
        (forall_after quietLedger quiet)
        (fun listener member => quiet listener (mem_listeners_cons member))
        (fun name member => areOwn name (mem_names_cons member))
        (fun listener member =>
          areHarmless listener (mem_listeners_cons member))
        cancelsOwn.2
      exact ⟨next, Outcome.andThen_eq_ok.mpr ⟨_, middle, first, others⟩⟩

/-- Whatever is subscribed, cancelled and set, the network is as the ledger says
as long as no listener fails or acts on the signal; and listeners that do nothing
let every step succeed. -/
theorem accounts_of_run {steps : List (Step α)} (isFresh : IsFresh network id)
    (areHarmless : ∀ listener ∈ listeners steps,
      network.scene.IsHarmless id (names steps) listener)
    (cancelsOwn : CancelsOwn [] steps) :
    (∀ next, run id network steps = ⟨.ok (), next⟩ →
        Accounts id network steps next) ∧
      ((∀ listener ∈ listeners steps,
          ∃ label, listener = .subscriber label .nothing) →
        ∃ next, run id network steps = ⟨.ok (), next⟩) :=
  ⟨fun _ done => accounts_of_done isFresh areHarmless cancelsOwn done,
    fun quiet => run_nothing isFresh.exists_signal (isFresh.stands _) nofun
      quiet (fun _ member => member) areHarmless cancelsOwn⟩

end Accounts

/-- A number, and another that it is forwarded to. -/
def twoNumbers : Network Nat :=
  (Network.empty.addCell ['n'] ['n'] (some 1)).addCell ['m'] ['m'] none

/-- One listener is subscribed twice and cancelled twice under one name. -/
def sharedSteps : List (Step Nat) :=
  [.subscribe ['a'] (.subscriber ['l'] .nothing) true, .set 2,
    .subscribe ['b'] (.subscriber ['l'] .nothing) false,
    .subscribe ['c'] (.subscriber ['f'] (.forward ['m'])) false, .set 2,
    .set 3, .cancel ['a'], .cancel ['a'], .set 4]

theorem accounts_of_run_shared :
    ∃ next, run 0 twoNumbers sharedSteps = ⟨.ok (), next⟩ ∧
      Accounts 0 twoNumbers sharedSteps next ∧
      next.listeners 0 =
        [.subscriber ['l'] .nothing, .subscriber ['f'] (.forward ['m'])] ∧
      next.scene.heard ['l'] = [1, 2, 3, 3, 4] := by
  have isFresh : IsFresh twoNumbers 0 := ⟨by decide, rfl, nofun⟩
  have areHarmless : ∀ listener ∈ listeners sharedSteps,
      twoNumbers.scene.IsHarmless 0 (names sharedSteps) listener := by
    intro listener member leads
    have known : listener = .subscriber ['l'] .nothing ∨
        listener = .subscriber ['f'] (.forward ['m']) := by
      simpa [listeners, sharedSteps] using member
    have target : ∀ id, twoNumbers.scene.Sets listener id → id = 1 := by
      intro id sets
      rcases known with rfl | rfl
      · exact sets.elim
      · cases sets
        rfl
    cases leads with
    | itself does =>
        rcases does with sets | ⟨_, _, _, cancels⟩
        · exact absurd (target 0 sets) (by decide)
        · rcases known with rfl | rfl <;> cases cancels
    | onward sets heard =>
        have none : twoNumbers.scene.listeners 1 = [] := rfl
        rw [target _ sets, none] at heard
        cases heard
  have cancelsOwn : CancelsOwn [] sharedSteps := by
    simp [sharedSteps, CancelsOwn, Step.after, latest?, close]
  have result : (run 0 twoNumbers sharedSteps).result = .ok () := by
    decide +kernel
  have done : run 0 twoNumbers sharedSteps =
      ⟨.ok (), (run 0 twoNumbers sharedSteps).network⟩ := by
    rw [← result]
  exact ⟨_, done, (accounts_of_run isFresh areHarmless cancelsOwn).1 _ done,
    by decide +kernel, by decide +kernel⟩

end Subscriptions

end CurrencyPad
