import CurrencyPad.Proofs.Signal.Standing

/-!
# Networks that tell combinations

What subscribers do when they are told of a value is not seen by a combination.
What the combination is told itself changes how it stands and nothing else.
-/

namespace CurrencyPad

variable {α : Type}

namespace Network

variable {network next : Network α} {id : SignalId} {standing : Standing α}

theorem exists_signal_of_standing
    (isStanding : network.view.standing? id = some standing) :
    ∃ signal, network.signal? id = some signal ∧
      signal.combination = some standing.combination ∧
      signal.cell.value = standing.value := by
  obtain ⟨facet, isFacet, isCombination, value, _⟩ :=
    View.standing?_eq_some_iff.mp isStanding
  obtain ⟨signal, isSignal, rfl⟩ := Option.map_eq_some_iff.mp isFacet
  exact ⟨signal, isSignal, isCombination, value⟩

theorem combination?_of_standing
    (isStanding : network.view.standing? id = some standing) :
    network.combination? id = some standing.combination := by
  obtain ⟨signal, isSignal, isCombination, _⟩ :=
    exists_signal_of_standing isStanding
  rw [combination?, isSignal]
  exact isCombination

theorem value?_of_standing
    (isStanding : network.view.standing? id = some standing) :
    network.value? id = standing.value := by
  obtain ⟨signal, isSignal, _, isValue⟩ := exists_signal_of_standing isStanding
  rw [value?, isSignal]
  exact isValue

theorem computations_of_standing
    (isStanding : network.view.standing? id = some standing) :
    network.computations = standing.computations := by
  obtain ⟨_, _, _, _, count⟩ := View.standing?_eq_some_iff.mp isStanding
  exact count

/-- The combination of a signal stands otherwise, and nothing else changed. -/
def Restands (network : Network α) (id : SignalId) (standing : Standing α)
    (next : Network α) : Prop :=
  network.Yields (network.view.withStanding id standing) next

theorem Restands.refl (isStanding : network.view.standing? id = some standing) :
    network.Restands id standing network := by
  rw [Restands, View.withStanding_self isStanding]
  exact .refl network

theorem Restands.trans {middle final : Standing α} {last : Network α}
    (first : network.Restands id middle next)
    (second : next.Restands id final last) : network.Restands id final last := by
  rw [Restands, first.view, View.withStanding_withStanding] at second
  exact Yields.trans first second

theorem Restands.of_yields {last : Network α}
    (first : network.Restands id standing next)
    (second : next.Yields next.view last) :
    network.Restands id standing last := by
  rw [first.view] at second
  exact Yields.trans first second

theorem Restands.standing?_eq {other : Standing α}
    (restands : network.Restands id standing next)
    (isStanding : network.view.standing? id = some other) :
    next.view.standing? id = some standing := by
  rw [restands.view]
  exact View.standing?_withStanding isStanding

theorem Restands.known (restands : network.Restands id standing next) :
    next.view.known = network.view.known := by
  rw [restands.view]
  rfl

theorem restands_modifyCombination
    (isStanding : network.view.standing? id = some standing)
    (change : Combination α → Combination α) :
    network.Restands id (standing.modify change)
      (network.modifyCombination id change) := by
  have yields := yields_modifyCombination network id change
  rw [View.modify_eq_withStanding _ (standing.modify change) isStanding
    (fun facet isCombination value => ?_) rfl] at yields
  · exact yields
  · have kept : (standing.modify change).value = facet.value := value.symm
    rw [kept, isCombination]
    rfl

theorem restands_note_combine
    (isStanding : network.view.standing? id = some standing) (name : Text)
    (arguments : List (Option α)) :
    network.Restands id
      { standing with computations := standing.computations + 1 }
      (network.note (.combine name arguments)) := by
  obtain ⟨_, _, _, _, count⟩ := View.standing?_eq_some_iff.mp isStanding
  rw [Restands, View.withStanding_computations isStanding, ← count]
  exact yields_note_combine network name arguments

/-- No other signal got another value, and the holds are counted as before. -/
structure Spares (network : Network α) (id : SignalId) (next : Network α) :
    Prop where
  value : ∀ other, other ≠ id →
    next.view.value other = network.view.value other
  held : next.view.held = network.view.held

theorem Spares.refl (network : Network α) (id : SignalId) :
    network.Spares id network :=
  ⟨fun _ _ => rfl, rfl⟩

theorem Spares.trans {last : Network α} (first : network.Spares id next)
    (second : next.Spares id last) : network.Spares id last :=
  ⟨fun other ne => (second.value other ne).trans (first.value other ne),
    second.held.trans first.held⟩

theorem spares_modifyCombination (network : Network α) (id : SignalId)
    (change : Combination α → Combination α) :
    network.Spares id (network.modifyCombination id change) := by
  have yields := yields_modifyCombination network id change
  refine ⟨fun other ne => ?_, ?_⟩
  · rw [yields.view, View.value_modify_of_ne ne]
  · rw [yields.view]
    rfl

theorem Restands.spares (restands : network.Restands id standing next) :
    network.Spares id next := by
  refine ⟨fun other ne => ?_, ?_⟩
  · rw [restands.view, View.value_withStanding_of_ne ne]
  · rw [restands.view]
    rfl

theorem deliver_quiet (set : Setting α) (only : network.OnlySubscribers)
    {listener : Listener} (quiet : IsQuiet network.view.known listener)
    (value : α) :
    ∃ next, deliver set value network listener = ⟨.ok (), next⟩ ∧
      network.Yields network.view next := by
  cases listener with
  | source combination index =>
      exact quiet.elim
  | subscriber label reaction =>
      have noted := yields_note_listener network label value
      cases reaction with
      | nothing =>
          exact ⟨_, rfl, noted⟩
      | fail =>
          exact quiet.elim
      | forward signal =>
          exact quiet.elim
      | cancel subscription =>
          have known : (network.note (.listener label value)).view.known
              subscription = true := by
            rw [noted.view]
            exact quiet
          obtain ⟨next, cancelled, yields⟩ :=
            cancel_spec (noted.subscribers only) known
          rw [noted.view] at yields
          exact ⟨next, cancelled, noted.trans yields⟩

theorem deliverAll_quiet (set : Setting α) (only : network.OnlySubscribers)
    {listeners : List Listener}
    (quiet : ∀ listener ∈ listeners, IsQuiet network.view.known listener)
    (value : α) :
    ∃ next, deliverAll set value network listeners = ⟨.ok (), next⟩ ∧
      network.Yields network.view next := by
  induction listeners generalizing network with
  | nil =>
      exact ⟨network, rfl, .refl network⟩
  | cons listener rest inductionHypothesis =>
      rw [List.forall_mem_cons] at quiet
      obtain ⟨middle, told, first⟩ :=
        deliver_quiet set only quiet.1 value
      have restQuiet : ∀ listener ∈ rest,
          IsQuiet middle.view.known listener := by
        rw [first.view]
        exact quiet.2
      obtain ⟨next, restTold, second⟩ :=
        inductionHypothesis (first.subscribers only) restQuiet
      refine ⟨next, ?_, ?_⟩
      · rw [deliverAll, told]
        exact restTold
      · rw [first.view] at second
        exact first.trans second

/-- A signal gets a value, and nobody waits for one any more. -/
theorem yields_change {id : SignalId} {signal : Signal α}
    (isSignal : network.signal? id = some signal) (value : α) :
    network.Yields
      (network.view.modify id fun facet => { facet with value := some value })
      (network.modifyCell id fun _ =>
        { signal.cell with value := some value, waiters := [] }) := by
  refine yields_modifySignal (fun found isFound => ?_)
    (fun found isFound listener member => ?_)
  · rw [isSignal] at isFound
    cases isFound
    rfl
  · rw [isSignal] at isFound
    cases isFound
    exact member

/-- The listeners of a signal are quiet. -/
structure IsCalm (network : Network α) (id : SignalId) : Prop where
  only : network.OnlySubscribers
  quiet : ∀ listener ∈ network.listeners id,
    IsQuiet network.view.known listener

theorem Restands.isCalm (restands : network.Restands id standing next)
    (calm : network.IsCalm id) : next.IsCalm id := by
  refine ⟨restands.subscribers calm.only, fun listener member => ?_⟩
  rw [restands.known]
  exact calm.quiet listener (restands.listeners id listener member)

variable [BEq α] {compute : List (Option α) → α} (depth : Nat)

/-- The value of a combination is set. -/
theorem setWithin_combination
    (isStanding : network.view.standing? id = some standing)
    (calm : network.IsCalm id) (value : α) :
    ∃ isNew next result, setWithin (depth + 1) network id value =
        ⟨.ok isNew, next⟩ ∧
      (result = value ∨
        standing.value = some result ∧ (result == value) = true) ∧
      network.Restands id { standing with value := some result } next := by
  obtain ⟨signal, isSignal, isCombination, isValue⟩ :=
    exists_signal_of_standing isStanding
  have isListeners : network.listeners id = signal.cell.listeners := by
    rw [listeners, isSignal]
    rfl
  unfold setWithin
  rw [isSignal, Option.map_some]
  dsimp only
  unfold Cell.change?
  rw [isValue]
  by_cases equal : standing.value.any (· == value) = true
  · rw [if_pos equal]
    obtain ⟨old, isOld, same⟩ := (Option.any_eq_true _ _).mp equal
    have kept : ({ standing with value := some old } : Standing α) =
        standing := by
      rw [← isOld]
    refine ⟨false, network, old, rfl, .inr ⟨isOld, same⟩, ?_⟩
    rw [kept]
    exact .refl isStanding
  · rw [if_neg equal]
    dsimp only
    have changed : network.Restands id { standing with value := some value }
        (network.modifyCell id fun _ =>
          { signal.cell with value := some value, waiters := [] }) := by
      have yields := yields_change isSignal value
      rw [View.modify_eq_withStanding _
        { standing with value := some value } isStanding
        (fun facet isCombination _ => by rw [← isCombination]) rfl] at yields
      exact yields
    have resolved := changed.of_yields
      (yields_resolve _ id signal.cell.waiters value)
    have quiet := calm.quiet
    rw [isListeners, ← resolved.known] at quiet
    obtain ⟨next, told, yields⟩ := deliverAll_quiet
      (setWithin depth) (resolved.subscribers calm.only) quiet value
    refine ⟨true, next, value, ?_, .inl rfl, resolved.of_yields yields⟩
    rw [told]
    rfl

theorem recompute_spec
    (isStanding : network.view.standing? id = some standing)
    (calm : network.IsCalm id)
    (total : standing.combination.combine =
      fun arguments => .ok (compute arguments)) :
    ∃ next nextStanding,
      recompute (setWithin (depth + 1)) network id = ⟨.ok (), next⟩ ∧
        Recomputes compute standing nextStanding ∧
        network.Restands id nextStanding next := by
  have fresh := restands_modifyCombination isStanding
    ({ · with stale := false })
  have freshStanding := fresh.standing?_eq isStanding
  obtain ⟨signal, isSignal, isCombination, _⟩ :=
    exists_signal_of_standing freshStanding
  unfold recompute
  dsimp only
  rw [isSignal, combination?_of_standing freshStanding]
  dsimp only
  cases isReady : arguments? standing.combination with
  | none =>
      have missing : arguments?
          (standing.modify ({ · with stale := false })).combination = none :=
        isReady
      rw [missing]
      exact ⟨_, _, rfl, .unready isReady, fresh⟩
  | some arguments =>
      have ready : arguments?
          (standing.modify ({ · with stale := false })).combination =
            some arguments :=
        isReady
      have isTotal :
          (standing.modify ({ · with stale := false })).combination.combine
              arguments =
            .ok (compute arguments) := by
        show standing.combination.combine arguments = _
        rw [total]
      rw [ready]
      dsimp only
      rw [isTotal]
      dsimp only
      have noted := fresh.trans
        (restands_note_combine freshStanding signal.name arguments)
      obtain ⟨isNew, next, value, isSet, result, restands⟩ :=
        setWithin_combination depth (noted.standing?_eq isStanding)
          (noted.isCalm calm) (compute arguments)
      refine ⟨next, _, ?_, .computed isReady result, noted.trans restands⟩
      rw [isSet]
      rfl

theorem deliver_source
    (isStanding : network.view.standing? id = some standing)
    (calm : network.IsCalm id)
    (total : standing.combination.combine =
      fun arguments => .ok (compute arguments)) (index : Nat) (value : α) :
    ∃ next nextStanding,
      deliver (setWithin (depth + 1)) value network (.source id index) =
          ⟨.ok (), next⟩ ∧
        Hears compute value index standing nextStanding ∧
        network.Restands id nextStanding next := by
  have learned := restands_modifyCombination isStanding fun combination =>
    { combination with latest := combination.latest.set index (some value) }
  have learnedStanding := learned.standing?_eq isStanding
  unfold deliver
  dsimp only
  rw [combination?_of_standing learnedStanding, Option.any_some]
  by_cases free : standing.combination.holds = 0
  · have notHeld : ¬ ((standing.modify fun combination =>
        { combination with
          latest := combination.latest.set index (some value) }
        ).combination.holds != 0) = true := by
      simpa [Standing.modify] using free
    obtain ⟨next, nextStanding, isComputed, recomputes, restands⟩ :=
      recompute_spec depth learnedStanding
        (learned.isCalm calm) total
    rw [if_neg notHeld]
    exact ⟨next, nextStanding, isComputed, .free free recomputes,
      learned.trans restands⟩
  · have isHeld : ((standing.modify fun combination =>
        { combination with
          latest := combination.latest.set index (some value) }
        ).combination.holds != 0) = true := by
      simpa [Standing.modify] using free
    rw [if_pos isHeld]
    exact ⟨_, _, rfl, .held free,
      learned.trans (restands_modifyCombination learnedStanding _)⟩

/-- A source tells all its listeners, which are quiet or the combination. -/
theorem deliverAll_spec
    (isStanding : network.view.standing? id = some standing)
    (calm : network.IsCalm id)
    (total : standing.combination.combine =
      fun arguments => .ok (compute arguments)) (value : α)
    {listeners : List Listener}
    (each : ∀ listener ∈ listeners, IsQuiet network.view.known listener ∨
      ∃ index, listener = .source id index) :
    ∃ next nextStanding,
      deliverAll (setWithin (depth + 1)) value network listeners =
          ⟨.ok (), next⟩ ∧
        Told compute id value listeners standing nextStanding ∧
        network.Restands id nextStanding next := by
  induction listeners generalizing network standing with
  | nil =>
      exact ⟨network, standing, rfl, .nothing standing, .refl isStanding⟩
  | cons listener rest inductionHypothesis =>
      rw [List.forall_mem_cons] at each
      obtain ⟨first, later⟩ := each
      rcases first with quiet | ⟨index, rfl⟩
      · obtain ⟨middle, told, yields⟩ := deliver_quiet
          (setWithin (depth + 1)) calm.only quiet value
        have stands : network.Restands id standing middle :=
          (Restands.refl isStanding).of_yields yields
        obtain ⟨next, nextStanding, restTold, tells, restands⟩ :=
          inductionHypothesis (stands.standing?_eq isStanding)
            (stands.isCalm calm) total (by rwa [stands.known])
        refine ⟨next, nextStanding, ?_, ?_, stands.trans restands⟩
        · rw [deliverAll, told]
          exact restTold
        · cases listener with
          | subscriber label reaction =>
              exact .subscriber tells
          | source combination index =>
              exact quiet.elim
      · obtain ⟨middle, middleStanding, told, hears, stands⟩ :=
          deliver_source depth isStanding calm total index value
        obtain ⟨next, nextStanding, restTold, tells, restands⟩ :=
          inductionHypothesis (stands.standing?_eq isStanding)
            (stands.isCalm calm) (hears.spec.1.combine_eq.trans total)
            (by rwa [stands.known])
        refine ⟨next, nextStanding, ?_, .source hears tells,
          stands.trans restands⟩
        rw [deliverAll, told]
        exact restTold

/-- The network in which a signal has a value of which nobody was told. -/
def withValue (network : Network α) (id : SignalId) (value : α) : Network α :=
  network.modifyCell id ({ · with value := some value })

omit [BEq α] in
theorem view_withValue (network : Network α) (id : SignalId) (value : α) :
    (network.withValue id value).view =
      network.view.modify id fun facet => { facet with value := some value } :=
  view_modifySignal fun _ _ => rfl

omit [BEq α] in
theorem listeners_withValue (network : Network α) (id other : SignalId)
    (value : α) :
    (network.withValue id value).listeners other = network.listeners other := by
  rw [withValue, listeners_modifyCell]
  split
  case isTrue here =>
    rw [here]
    rfl
  · rfl

/-- A source is set: the value is equal to the old one, or the combination is
told it by all listeners with which it is registered. -/
theorem setWithin_source {source : SignalId} (differs : source ≠ id)
    (isStanding : network.view.standing? id = some standing)
    (calm : network.IsCalm id)
    (total : standing.combination.combine =
      fun arguments => .ok (compute arguments))
    {signal : Signal α} (isSignal : network.signal? source = some signal)
    (each : ∀ listener ∈ network.listeners source,
      IsQuiet network.view.known listener ∨
        ∃ index, listener = .source id index) (value : α) :
    (∃ old, network.value? source = some old ∧ (old == value) = true ∧
        setWithin (depth + 2) network source value = ⟨.ok false, network⟩) ∨
      ∃ next nextStanding,
        setWithin (depth + 2) network source value = ⟨.ok true, next⟩ ∧
          Told compute id value (network.listeners source) standing
            nextStanding ∧
          (network.withValue source value).Restands id nextStanding next := by
  have isListeners : network.listeners source = signal.cell.listeners := by
    rw [listeners, isSignal]
    rfl
  unfold setWithin
  rw [isSignal, Option.map_some]
  dsimp only
  unfold Cell.change?
  by_cases equal : signal.cell.value.any (· == value) = true
  · rw [if_pos equal]
    obtain ⟨old, isOld, same⟩ := (Option.any_eq_true _ _).mp equal
    refine .inl ⟨old, ?_, same, rfl⟩
    rw [value?, isSignal]
    exact isOld
  · rw [if_neg equal]
    dsimp only
    -- The listeners are told in the network in which the source is set already.
    have changed := yields_change isSignal value
    have resolved := changed.trans (changed.view ▸
      yields_resolve _ source signal.cell.waiters value)
    generalize (network.modifyCell source fun _ =>
      { signal.cell with value := some value, waiters := [] }).resolve source
        signal.cell.waiters value = middle at resolved
    have stands : middle.view.standing? id = some standing := by
      rw [resolved.view]
      obtain ⟨facet, isFacet, rest⟩ := View.standing?_eq_some_iff.mp isStanding
      refine View.standing?_eq_some_iff.mpr ⟨facet, ?_, rest⟩
      exact (Function.update_of_ne differs.symm _ _).trans isFacet
    have known : middle.view.known = network.view.known := by
      rw [resolved.view]
      rfl
    have stillCalm : middle.IsCalm id := by
      refine ⟨resolved.subscribers calm.only, fun listener member => ?_⟩
      rw [known]
      exact calm.quiet listener (resolved.listeners id listener member)
    rw [isListeners, ← known] at each
    obtain ⟨next, nextStanding, told, tells, restands⟩ :=
      deliverAll_spec depth stands stillCalm total value each
    refine .inr ⟨next, nextStanding, ?_, isListeners ▸ tells, ?_⟩
    · rw [told]
      rfl
    · rw [Restands, resolved.view] at restands
      have yields := resolved.trans restands
      rw [← view_withValue] at yields
      refine ⟨yields.view, fun id listener member => ?_, yields.subscribers⟩
      rw [listeners_withValue]
      exact yields.listeners id listener member

end Network

end CurrencyPad
