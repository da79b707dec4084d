import CurrencyPad.Proofs.Signal.Changes
import CurrencyPad.Proofs.Signal.Run

/-!
# First values

A combination that is started is told the values of its sources and computes once
it knows them all.  It computes only if it was told something: where no source has
a value there is nothing to compute from, even if no source is required.
-/

namespace CurrencyPad

variable {α : Type}

namespace Network

variable {network middle next : Network α} {id : SignalId}

theorem combination?_modifyCell (network : Network α) (id other : SignalId)
    (change : Cell α Listener Text → Cell α Listener Text) :
    (network.modifyCell id change).combination? other =
      network.combination? other := by
  rw [combination?, modifyCell, signal?_modifySignal, combination?]
  split
  case isTrue here =>
    rw [here, Option.bind_map]
    rfl
  · rfl

theorem combination?_modifyCombination (network : Network α) (id : SignalId)
    (change : Combination α → Combination α) :
    (network.modifyCombination id change).combination? id =
      (network.combination? id).map change := by
  rw [combination?, modifyCombination, signal?_modifySignal, if_pos rfl,
    Option.bind_map, combination?, Option.map_bind]
  rfl

/-- All signals have the values that they had, names stand for the same signals,
and at most some signals got other listeners. -/
structure Regards (changed : List SignalId) (network next : Network α) :
    Prop where
  value : next.value? = network.value?
  find : next.find? = network.find?
  listeners : ∀ id, id ∉ changed → next.listeners id = network.listeners id

variable {changed : List SignalId}

theorem Regards.refl (network : Network α) : network.Regards changed network :=
  ⟨rfl, rfl, fun _ _ => rfl⟩

theorem Regards.trans (first : Regards changed network middle)
    (second : Regards changed middle next) : Regards changed network next :=
  ⟨second.value.trans first.value, second.find.trans first.find,
    fun id foreign =>
      (second.listeners id foreign).trans (first.listeners id foreign)⟩

theorem regards_modifyCombination (network : Network α) (id : SignalId)
    (change : Combination α → Combination α) :
    Regards changed network (network.modifyCombination id change) := by
  have scenes := scene_modifyCombination network id change
  exact ⟨congrArg Scene.value scenes, congrArg Scene.find scenes,
    fun other _ => congrFun (congrArg Scene.listeners scenes) other⟩

theorem regards_register (network : Network α) {source : SignalId}
    (member : source ∈ changed) (listener : Listener) :
    Regards changed network
      (network.modifyCell source (·.register listener)) := by
  refine ⟨funext fun other => ?_, rfl, fun other foreign => ?_⟩
  · rw [value?_modifyCell]
    split
    case isTrue here =>
      rw [here]
      rfl
    · rfl
  · rw [listeners_modifyCell, if_neg]
    rintro rfl
    exact foreign member

end Network

/-- A held combination that is told the value of a source, if there is one. -/
def Combination.told (combination : Combination α) (index : Nat) :
    Option α → Combination α
  | some value =>
    { combination with
      latest := combination.latest.set index (some value)
      stale := true }
  | none => combination

namespace Network

variable {network : Network α} {id : SignalId} {changed : List SignalId}
  {combination : Combination α} [BEq α]

theorem attachOne_held
    (isCombination : network.combination? id = some combination)
    (isHeld : combination.holds ≠ 0) (index : Nat) {source : SignalId}
    (member : source ∈ changed) :
    ∃ next, network.attachOne id index source = ⟨.ok (), next⟩ ∧
      Regards changed network next ∧
      next.combination? id =
        some (combination.told index (network.value? source)) := by
  have registers := network.regards_register member (.source id index)
  have stays := network.combination?_modifyCell source id
    (·.register (.source id index))
  rw [isCombination] at stays
  unfold attachOne
  cases isValue : network.value? source with
  | none =>
      exact ⟨_, rfl, registers, stays⟩
  | some value =>
      dsimp only
      generalize network.modifyCell source (·.register (.source id index)) =
        registered at registers stays
      have learnt := registered.combination?_modifyCombination id
        fun combination =>
          { combination with
            latest := combination.latest.set index (some value) }
      rw [stays] at learnt
      have isDeferred : ((registered.modifyCombination id fun combination =>
          { combination with
            latest := combination.latest.set index (some value) }).combination?
              id).any (·.holds != 0) = true := by
        rw [learnt]
        simpa using isHeld
      unfold deliver
      dsimp only
      rw [if_pos isDeferred]
      refine ⟨_, rfl, registers.trans ((regards_modifyCombination _ _ _).trans
        (regards_modifyCombination _ _ _)), ?_⟩
      rw [combination?_modifyCombination, learnt]
      rfl

/-- What a held combination knows after it was attached to all its sources from
some number on. -/
theorem attach_held {position : Nat} {sources : List SignalId}
    (isCombination : network.combination? id = some combination)
    (isHeld : combination.holds ≠ 0)
    (length : combination.latest.length = position + sources.length)
    (unknown : ∀ (index : Nat) (source : SignalId),
      sources[index]? = some source → network.value? source = none →
        combination.latest[position + index]? = some none)
    (members : ∀ source ∈ sources, source ∈ changed) :
    ∃ next, attach id position network sources = ⟨.ok (), next⟩ ∧
      Regards changed network next ∧
      next.combination? id =
        some { combination with
          latest := combination.latest.take position ++
            sources.map network.value?
          stale := combination.stale ||
            sources.any fun source => (network.value? source).isSome } := by
  induction sources generalizing position network combination with
  | nil =>
      have whole : combination.latest.take position = combination.latest :=
        List.take_of_length_le (Nat.le_of_eq length)
      refine ⟨network, rfl, .refl network, ?_⟩
      rw [isCombination, whole]
      simp
  | cons source rest inductionHypothesis =>
      rw [List.forall_mem_cons] at members
      obtain ⟨middle, told, regards, isMiddle⟩ :=
        attachOne_held isCombination isHeld position members.1
      have inside : position < combination.latest.length := by
        rw [length, List.length_cons]
        omega
      -- A source without value is unknown to the combination, as before.
      have isLatest : (combination.told position
          (network.value? source)).latest =
            combination.latest.set position (network.value? source) := by
        cases isValue : network.value? source with
        | some value =>
            rfl
        | none =>
            have isUnknown := unknown 0 source rfl isValue
            rw [Nat.add_zero, List.getElem?_eq_getElem inside] at isUnknown
            unfold Combination.told
            dsimp only
            rw [← Option.some.inj isUnknown, List.set_getElem_self]
      have stillHeld : (combination.told position
          (network.value? source)).holds ≠ 0 := by
        cases network.value? source <;> exact isHeld
      have stillLong : (combination.told position
          (network.value? source)).latest.length =
            position + 1 + rest.length := by
        rw [isLatest, List.length_set, length, List.length_cons]
        omega
      have stillUnknown : ∀ (index : Nat) (other : SignalId),
          rest[index]? = some other → middle.value? other = none →
            (combination.told position
              (network.value? source)).latest[position + 1 + index]? =
                some none := by
        intro index other isOther isUnset
        rw [regards.value] at isUnset
        have isUnknown := unknown (index + 1) other isOther isUnset
        rwa [isLatest, List.getElem?_set_ne (by omega), Nat.add_assoc,
          Nat.add_comm 1]
      obtain ⟨next, attached, more, isNext⟩ := inductionHypothesis isMiddle
        stillHeld stillLong stillUnknown members.2
      refine ⟨next, ?_, regards.trans more, ?_⟩
      · rw [attach_cons, told]
        exact attached
      · rw [isNext, isLatest, regards.value, List.take_add_one,
          List.take_set_of_le (Nat.le_refl _), List.getElem?_set_self inside]
        cases isValue : network.value? source <;>
          simp [Combination.told, isValue]

end Network

/-! ## Settings that come back to none of some signals -/

/-- Nothing that comes of telling the listeners of the signal sets one of the
given signals. -/
def Scene.IsApart (scene : Scene α) (id : SignalId) (kept : List SignalId) :
    Prop :=
  ∀ listener ∈ scene.listeners id,
    ∀ other ∈ kept, ¬ scene.MaySet other listener

/-- The signal is not kept, and setting it sets none that is. -/
def Scene.IsBeyond (scene : Scene α) (kept : List SignalId) (id : SignalId) :
    Prop :=
  id ∉ kept ∧ scene.IsApart id kept

theorem Scene.IsApart.isBeyond {scene : Scene α} {kept : List SignalId}
    {id other : SignalId} (apart : scene.IsApart id kept) {listener : Listener}
    (member : listener ∈ scene.listeners id)
    (sets : scene.Sets listener other) : scene.IsBeyond kept other :=
  ⟨fun isKept => apart listener member other isKept (.itself sets),
    fun _ isFurther target isTarget leads =>
      apart listener member target isTarget (.onward sets isFurther leads)⟩

namespace Network

variable {network next : Network α} {id : SignalId}
  {changed kept : List SignalId}

/-- Other listeners of signals that are kept lead nowhere. -/
theorem Regards.maySet (regards : Regards changed network next)
    (areKept : ∀ source ∈ changed, source ∈ kept) {listener : Listener}
    (isKept : id ∈ kept) (may : next.scene.MaySet id listener) :
    ∃ other ∈ kept, network.scene.MaySet other listener := by
  have sets_iff : ∀ {listener : Listener} {other : SignalId},
      next.scene.Sets listener other → network.scene.Sets listener other := by
    intro listener other sets
    have find : next.scene.find = network.scene.find := regards.find
    unfold Scene.Sets at sets ⊢
    rwa [← find]
  induction may with
  | itself does =>
      exact ⟨id, isKept, .itself (sets_iff does)⟩
  | @onward listener other middle sets member _ inductionHypothesis =>
      by_cases isChanged : middle ∈ changed
      · exact ⟨middle, areKept middle isChanged, .itself (sets_iff sets)⟩
      · obtain ⟨target, isTarget, leads⟩ := inductionHypothesis
        have wasListener : other ∈ network.scene.listeners middle := by
          have same : next.scene.listeners middle =
              network.scene.listeners middle :=
            regards.listeners middle isChanged
          rwa [← same]
        exact ⟨target, isTarget, .onward (sets_iff sets) wasListener leads⟩

theorem Regards.isApart (regards : Regards changed network next)
    (areKept : ∀ source ∈ changed, source ∈ kept) (foreign : id ∉ changed)
    (apart : network.scene.IsApart id kept) : next.scene.IsApart id kept := by
  intro listener member other isKept may
  have same : next.scene.listeners id = network.scene.listeners id :=
    regards.listeners id foreign
  rw [same] at member
  obtain ⟨target, isTarget, leads⟩ := regards.maySet areKept isKept may
  exact apart listener member target isTarget leads

variable [BEq α]

/-- A signal that is set keeps the value whatever its listeners do with it, as
long as they do not come back to the signal. -/
theorem value?_set (exists_signal : (network.signal? id).isSome = true)
    (isKept : id ∈ kept) (apart : network.scene.IsApart id kept) (value : α) :
    (∃ stored, (set network id value).network.value? id = some stored ∧
      (stored = value ∨
        network.value? id = some stored ∧ (stored == value) = true)) ∧
    ∀ other ∈ kept, other ≠ id →
      (set network id value).network.value? other = network.value? other := by
  obtain ⟨signal, isSignal⟩ := Option.isSome_iff_exists.mp exists_signal
  have isOld : network.value? id = signal.cell.value := value_eq isSignal
  unfold set depthLimit
  rw [setWithin_succ 999 isSignal]
  by_cases equal : signal.cell.value.any (· == value) = true
  · rw [if_pos equal]
    obtain ⟨old, isValue, same⟩ := (Option.any_eq_true _ _).mp equal
    refine ⟨⟨old, ?_, .inr ⟨?_, same⟩⟩, fun _ _ _ => rfl⟩
    · exact isOld.trans isValue
    · exact isOld.trans isValue
  · rw [if_neg equal, network_andThen_done]
    have stored := scene_store isSignal value
    have closed : IsClosed network.scene (network.scene.IsBeyond kept) :=
      fun _ beyond _ member _ sets => beyond.2.isBeyond member sets
    have changes : Changes (network.scene.IsBeyond kept)
        (network.store id value)
        (deliverAll (setWithin 999) value (network.store id value)
          signal.cell.listeners).network := changes_deliverAll
      (changes_setWithin closed 999)
      (fun listener member other sets =>
        apart.isBeyond (listeners_eq isSignal ▸ member) sets)
      (stored ▸ Scene.shrinks_put network.scene id value)
    have values : ∀ other, (network.store id value).value? other =
        Function.update network.value? id (some value) other :=
      congrFun (congrArg Scene.value stored)
    refine ⟨⟨value, ?_, .inl rfl⟩, fun other isOther differs => ?_⟩
    · rw [changes.value?_eq fun beyond => beyond.1 isKept, values,
        Function.update_self]
    · rw [changes.value?_eq fun beyond => beyond.1 isOther, values,
        Function.update_of_ne differs]

/-- What computing anew does to the values of a combination and of the signals
that are kept. -/
theorem value?_recompute {combination : Combination α}
    {compute : List (Option α) → α}
    (isCombination : network.combination? id = some combination)
    (total : combination.combine = fun arguments => .ok (compute arguments))
    (isKept : id ∈ kept) (apart : network.scene.IsApart id kept) :
    (arguments? combination = none →
      (recompute set network id).network.value? = network.value?) ∧
    ∀ arguments, arguments? combination = some arguments →
      (∃ value, (recompute set network id).network.value? id = some value ∧
        (value = compute arguments ∨
          network.value? id = some value ∧
            (value == compute arguments) = true)) ∧
      ∀ other ∈ kept, other ≠ id →
        (recompute set network id).network.value? other =
          network.value? other := by
  have sameScene := network.scene_setStale id false
  have isReset := network.combination?_modifyCombination id
    ({ · with stale := false })
  rw [isCombination] at isReset
  unfold recompute
  dsimp only
  generalize network.modifyCombination id ({ · with stale := false }) = reset
    at sameScene isReset
  have values : reset.value? = network.value? := congrArg Scene.value sameScene
  obtain ⟨signal, isSignal, _⟩ := Option.bind_eq_some_iff.mp isReset
  rw [isSignal, isReset, Option.map_some]
  dsimp only
  have sameArguments : arguments? { combination with stale := false } =
      arguments? combination :=
    rfl
  rw [sameArguments]
  refine ⟨fun missing => ?_, fun arguments ready => ?_⟩
  · rw [missing]
    exact values
  · rw [ready, total]
    dsimp only
    rw [network_andThen_done]
    have stillApart : (reset.note (.combine signal.name arguments)
        ).scene.IsApart id kept := by
      rwa [scene_note_combine, sameScene]
    have noted : (reset.note (.combine signal.name arguments)).value? =
        network.value? :=
      values
    have exists_signal : ((reset.note (.combine signal.name arguments)).signal?
        id).isSome = true :=
      Option.isSome_iff_exists.mpr ⟨signal, isSignal⟩
    have isStored := value?_set exists_signal isKept stillApart
      (compute arguments)
    rwa [noted] at isStored

end Network

/-! ## Combinations that can be started -/

namespace Wiring

/-- All required sources have values. -/
def IsReady (wiring : Wiring α) (network : Network α) : Prop :=
  ∀ (index : Nat) (source : SignalId), wiring.sources[index]? = some source →
    index ∉ wiring.optional → (network.value? source).isSome = true

def HasSource (wiring : Wiring α) (network : Network α) : Prop :=
  ∃ source ∈ wiring.sources, (network.value? source).isSome = true

/-- The combination is neither started nor held.  It remembers at most values of
sources that have one, and it has a value itself only if there was something to
compute it from. -/
structure IsIdle (wiring : Wiring α) (latest : List (Option α))
    (network : Network α) : Prop where
  combination : network.combination? wiring.id =
    some { wiring.combination with latest }
  length : latest.length = wiring.sources.length
  distinct : wiring.id ∉ wiring.sources
  past : ∀ (index : Nat) (source : SignalId),
    wiring.sources[index]? = some source → network.value? source = none →
      latest[index]? = some none
  computed : (network.value? wiring.id).isSome = true →
    wiring.IsReady network ∧ wiring.HasSource network

variable {wiring : Wiring α} {latest : List (Option α)} {network : Network α}

theorem arguments?_isSome_iff {combination : Combination α}
    (knows : combination.latest = wiring.sources.map network.value?)
    (optional : combination.optional = wiring.optional) :
    (Network.arguments? combination).isSome = true ↔ wiring.IsReady network := by
  rw [Option.isSome_iff_exists]
  simp only [Network.arguments?_eq_some_iff, exists_and_left, exists_eq',
    and_true]
  rw [knows, optional]
  exact wiring.optional_of_missing_iff network

variable [BEq α]

omit [BEq α] in
/-- A combination that was just made of signals is idle and has no listeners. -/
theorem isIdle_addCombination (label : Text) (names : List Text)
    (isLast : wiring.id = network.signals.length)
    (found : names.map network.find? = wiring.sources.map some)
    (exist : ∀ source ∈ wiring.sources,
      (network.signal? source).isSome = true) :
    ∃ next,
      network.addCombination wiring.name label names wiring.optional
          (fun arguments => .ok (wiring.compute arguments)) =
        ⟨.ok (), next⟩ ∧
      wiring.IsIdle (List.replicate wiring.sources.length none) next ∧
      next.scene.IsApart wiring.id (wiring.id :: wiring.sources) := by
  have atId := (network.signal?_addSignal
    ⟨wiring.name, label, .new none, some wiring.combination⟩ wiring.id).trans
      (if_pos isLast)
  have unset : (network.addSignal ⟨wiring.name, label, .new none,
      some wiring.combination⟩).value? wiring.id = none := by
    rw [Network.value?, atId]
    rfl
  refine ⟨_, addCombination_eq label names found, ⟨?_, ?_, fun member => ?_,
    fun index source isSource _ => ?_, fun isSome => ?_⟩, ?_⟩
  · rw [Network.combination?, atId]
    rfl
  · exact List.length_replicate
  · have isSome := exist _ member
    rw [isLast, Network.signal?, List.getElem?_eq_none (Nat.le_refl _)] at isSome
    cases isSome
  · exact List.getElem?_replicate_of_lt (List.getElem?_eq_some_iff.mp isSource).1
  · rw [unset] at isSome
    cases isSome
  · intro listener member
    have isListener : listener ∈ Network.listeners _ wiring.id := member
    rw [Network.listeners, atId] at isListener
    cases isListener

/-- A combination that was closed can be started again. -/
theorem isIdle_of_running {standing : Standing α}
    (running : Running wiring network standing)
    (closed : standing.combination.attached = false)
    (free : standing.combination.holds = 0)
    (required : ∃ index < wiring.sources.length, index ∉ wiring.optional) :
    wiring.IsIdle standing.combination.latest network := by
  have wired := running.wired
  have fresh := running.settled free
  have isCombination : standing.combination =
      { wiring.combination with latest := standing.combination.latest } := by
    have sources := wired.sources
    have optional := wired.optional
    have total := wired.total
    generalize standing.combination = combination at *
    obtain ⟨_, _, _, _, _, _, _⟩ := combination
    cases sources
    cases optional
    cases total
    cases closed
    cases free
    cases fresh
    rfl
  refine ⟨?_, wired.length, wired.distinct, fun index source isSource isUnset =>
    wired.latest_of_unset isSource ?_, fun isSome => ?_⟩
  · rw [← isCombination]
    exact Network.combination?_of_standing wired.isStanding
  · rwa [Network.value_view]
  · rw [Network.value?_of_standing wired.isStanding] at isSome
    obtain ⟨arguments, ready⟩ :=
      Option.isSome_iff_exists.mp (wired.coherent.complete isSome)
    obtain ⟨known, _⟩ := Network.arguments?_eq_some_iff.mp ready
    have isReady : wiring.IsReady network := by
      intro index source isSource isRequired
      by_contra isUnset
      rw [Option.not_isSome_iff_eq_none, ← Network.value_view] at isUnset
      have missing := known index (wired.latest_of_unset isSource isUnset)
      rw [wired.optional] at missing
      exact isRequired missing
    obtain ⟨index, inside, isRequired⟩ := required
    have isSource := List.getElem?_eq_getElem inside
    exact ⟨isReady, _, List.mem_of_getElem? isSource,
      isReady index _ isSource isRequired⟩

/-! ## Starting -/

/-- The combination once it listens to its sources and knows their values. -/
def listening (wiring : Wiring α) (network : Network α) : Combination α :=
  { wiring.combination with
    latest := wiring.sources.map network.value?
    attached := true
    stale := wiring.sources.any fun source => (network.value? source).isSome }

/-- A combination that starts is computed if some source has a value. -/
theorem IsIdle.exists_listening (isIdle : wiring.IsIdle latest network) :
    ∃ middle, network.Regards wiring.sources middle ∧
      middle.combination? wiring.id = some (wiring.listening network) ∧
      network.start wiring.id =
        if (wiring.listening network).stale then
          Network.recompute Network.set middle wiring.id
        else middle.done () := by
  have begun : (network.beginHold wiring.id).combination? wiring.id = _ :=
    network.combination?_modifyCombination wiring.id _
  rw [isIdle.combination, Option.map_some] at begun
  have isBegun : network.Regards wiring.sources (network.beginHold wiring.id) :=
    Network.regards_modifyCombination network wiring.id _
  -- While it is attached it holds itself, so that it only notes what it is told.
  obtain ⟨attached, isAttached, regards, knows⟩ := Network.attach_held begun
    (Nat.succ_ne_zero _) (isIdle.length.trans (Nat.zero_add _).symm)
    (fun index source isSource isUnset => by
      rw [isBegun.value] at isUnset
      rw [Nat.zero_add]
      exact isIdle.past index source isSource isUnset)
    (fun _ member => member)
  rw [isBegun.value] at knows
  have marked := attached.combination?_modifyCombination wiring.id
    ({ · with attached := true })
  have ended := (attached.modifyCombination wiring.id
    ({ · with attached := true })).combination?_modifyCombination wiring.id
      fun combination => { combination with holds := combination.holds - 1 }
  rw [marked, knows, Option.map_some, Option.map_some] at ended
  have isListening : _ = some (wiring.listening network) := ended
  refine ⟨_, (isBegun.trans regards).trans
    ((Network.regards_modifyCombination _ _ _).trans
      (Network.regards_modifyCombination _ _ _)), isListening, ?_⟩
  unfold Network.start Network.withCombination
  rw [isIdle.combination]
  dsimp only
  have starts : ¬ wiring.combination.attached = true := Bool.false_ne_true
  have isSources : wiring.combination.sources = wiring.sources := rfl
  rw [if_neg starts, isSources, isAttached]
  unfold Outcome.andThen Network.endHold
  dsimp only
  rw [isListening, Option.any_some]
  rfl

/-- The combination has a value in the later network if and only if all its
required sources have one in the earlier and some source has.  It is the one for
the values of the sources, which have not changed. -/
structure IsFirst (wiring : Wiring α) (network next : Network α) : Prop where
  isSome_iff : (next.value? wiring.id).isSome = true ↔
    wiring.IsReady network ∧ wiring.HasSource network
  computed : ∀ value, next.value? wiring.id = some value →
    value = wiring.compute (wiring.sources.map network.value?) ∨
      network.value? wiring.id = some value ∧
        (value == wiring.compute (wiring.sources.map network.value?)) = true
  sources : ∀ source ∈ wiring.sources,
    next.value? source = network.value? source

/-- Where nothing can be computed, there was no value and there is none. -/
theorem IsIdle.isFirst_of_same {next : Network α}
    (isIdle : wiring.IsIdle latest network)
    (same : next.value? = network.value?)
    (nothing : ¬ (wiring.IsReady network ∧ wiring.HasSource network)) :
    wiring.IsFirst network next := by
  have unset : ¬ (network.value? wiring.id).isSome = true :=
    fun isSome => nothing (isIdle.computed isSome)
  refine ⟨?_, fun value isValue => ?_, fun _ _ => ?_⟩
  · rw [same]
    exact ⟨fun isSome => absurd isSome unset, fun both => absurd both nothing⟩
  · rw [same] at isValue
    exact absurd (Option.isSome_iff_exists.mpr ⟨value, isValue⟩) unset
  · rw [same]

/-- A combination has its first value after it was started, even if one of its
listeners fails when it is told. -/
theorem isFirst_start (isIdle : wiring.IsIdle latest network)
    (apart : network.scene.IsApart wiring.id (wiring.id :: wiring.sources)) :
    wiring.IsFirst network (network.start wiring.id).network := by
  obtain ⟨middle, regards, isListening, starts⟩ := isIdle.exists_listening
  have ready_iff : (Network.arguments? (wiring.listening network)).isSome =
      true ↔ wiring.IsReady network :=
    arguments?_isSome_iff rfl rfl
  have hasSource_iff : (wiring.listening network).stale = true ↔
      wiring.HasSource network :=
    List.any_eq_true
  have stillApart := regards.isApart (fun _ => List.mem_cons_of_mem _)
    isIdle.distinct apart
  have total : (wiring.listening network).combine =
      fun arguments => .ok (wiring.compute arguments) :=
    rfl
  obtain ⟨unready, computes⟩ := Network.value?_recompute isListening total
    List.mem_cons_self stillApart
  rw [regards.value] at unready computes
  rw [starts]
  by_cases hasSource : wiring.HasSource network
  · rw [if_pos (hasSource_iff.mpr hasSource)]
    cases isReady : Network.arguments? (wiring.listening network) with
    | none =>
        refine isIdle.isFirst_of_same (unready isReady) fun both => ?_
        rw [← ready_iff, isReady] at both
        exact absurd both.1 Bool.false_ne_true
    | some arguments =>
        have ready : wiring.IsReady network := by
          rw [← ready_iff, isReady]
          rfl
        have isArguments : wiring.sources.map network.value? = arguments :=
          (Network.arguments?_eq_some_iff.mp isReady).2
        obtain ⟨⟨value, isValue, computed⟩, kept⟩ := computes arguments isReady
        refine ⟨⟨fun _ => ⟨ready, hasSource⟩, fun _ => ?_⟩,
          fun other isOther => ?_, fun source member => ?_⟩
        · rw [isValue]
          rfl
        · rw [isValue] at isOther
          cases isOther
          rwa [isArguments]
        · refine kept source (List.mem_cons_of_mem _ member) ?_
          rintro rfl
          exact isIdle.distinct member
  · rw [if_neg (hasSource_iff.not.mpr hasSource)]
    exact isIdle.isFirst_of_same regards.value fun both => hasSource both.2

def doubled : Wiring Nat where
  id := 2
  name := ['d']
  sources := [0, 1, 0]
  optional := [1]
  compute arguments :=
    arguments.foldl (fun total argument => total + argument.getD 0) 0

def doubledNetwork : Network Nat :=
  ((((Network.empty.addCell ['p'] ['p'] (some 4)).addCell ['r'] ['r'] none
    ).addCombination doubled.name ['d'] [['p'], ['r'], ['p']] doubled.optional
      fun arguments => .ok (doubled.compute arguments)
    ).network.subscribe ['s'] 2 (.subscriber ['l'] .fail) false).network

theorem isFirst_start_doubled :
    doubled.IsIdle (List.replicate 3 none) doubledNetwork ∧
      doubledNetwork.scene.IsApart 2 [2, 0, 1, 0] ∧
      doubled.IsFirst doubledNetwork (doubledNetwork.start 2).network ∧
      (doubledNetwork.start 2).network.value? 2 = some 8 := by
  have isIdle : doubled.IsIdle (List.replicate 3 none) doubledNetwork := by
    refine ⟨rfl, rfl, by decide, fun index source isSource _ => ?_, nofun⟩
    exact List.getElem?_replicate_of_lt (List.getElem?_eq_some_iff.mp isSource).1
  have apart : doubledNetwork.scene.IsApart 2 [2, 0, 1, 0] := by
    have only : doubledNetwork.scene.listeners 2 =
        [.subscriber ['l'] .fail] :=
      rfl
    rw [Scene.IsApart, only]
    rintro listener member other - leads
    cases List.mem_singleton.mp member
    cases leads with
    | itself sets =>
        exact sets
    | onward sets =>
        exact sets
  exact ⟨isIdle, apart, isFirst_start isIdle apart, by decide +kernel⟩

def remark : Wiring Nat where
  id := 1
  name := ['r']
  sources := [0]
  optional := [0]
  compute := List.length

def remarkNetwork : Network Nat :=
  ((Network.empty.addCell ['p'] ['p'] none).addCombination remark.name ['r']
    [['p']] remark.optional fun arguments => .ok (remark.compute arguments)
    ).network

/-- A combination that requires no source has no value before one of them has. -/
theorem not_isSome_start_remark :
    remark.IsIdle [none] remarkNetwork ∧
      remarkNetwork.scene.IsApart 1 [1, 0] ∧
      ¬ (((remarkNetwork.start 1).network.value? 1).isSome = true ↔
        remark.IsReady remarkNetwork) := by
  have unset : (remarkNetwork.start 1).network.value? 1 = none := by
    decide +kernel
  have found : [['p']].map
      (Network.empty.addCell ['p'] ['p'] (none : Option Nat)).find? =
        remark.sources.map some :=
    rfl
  obtain ⟨next, made, isIdle, apart⟩ := isIdle_addCombination ['r'] [['p']] rfl
    found (by decide)
  have isNext : remarkNetwork = next := by
    rw [remarkNetwork, made]
  rw [unset, isNext]
  refine ⟨isIdle, apart, fun same => ?_⟩
  refine absurd (same.mpr fun index source isSource isRequired => ?_)
    Bool.false_ne_true
  have inside := (List.getElem?_eq_some_iff.mp isSource).1
  have first : index = 0 := Nat.lt_one_iff.mp inside
  exact absurd (first ▸ List.mem_singleton.mpr rfl) isRequired

end Wiring

end CurrencyPad
