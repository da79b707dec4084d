import CurrencyPad.Proofs.Signal.Hearing

/-!
# Wirings of combinations

A combination is registered with its sources while it is attached.  Attaching it
registers it with one source after another and tells it their values; closing it
takes it off in the same order.
-/

namespace CurrencyPad

/-- A combination with a total function, and the signals that it combines. -/
structure Wiring (α : Type) where
  id : SignalId
  name : Text
  sources : List SignalId
  optional : List Nat
  compute : List (Option α) → α

variable {α : Type} [BEq α]

namespace Network

/-- Registers a combination with one source, which tells its value at once. -/
def attachOne (network : Network α) (id : SignalId) (index : Nat)
    (source : SignalId) : Outcome α Unit :=
  let registered := network.modifyCell source (·.register (.source id index))
  match network.value? source with
  | some value => deliver set value registered (.source id index)
  | none => registered.done ()

theorem attach_cons (network : Network α) (id : SignalId) (index : Nat)
    (source : SignalId) (rest : List SignalId) :
    attach id index network (source :: rest) =
      (network.attachOne id index source).andThen fun _ next =>
        attach id (index + 1) next rest := by
  rw [attach]
  unfold attachOne
  cases network.value? source <;> rfl

end Network

/-- The combination stands in the network as its wiring says.  It is registered
with the sources of the given numbers, whose other listeners are quiet.  It knows
no value of a source that has none. -/
structure Wired (wiring : Wiring α) (registered : Nat → Bool)
    (network : Network α) (standing : Standing α) : Prop where
  isStanding : network.view.standing? wiring.id = some standing
  named : (network.view.facet wiring.id).map (·.name) = some wiring.name
  sources : standing.combination.sources = wiring.sources
  optional : standing.combination.optional = wiring.optional
  total : standing.combination.combine =
    fun arguments => .ok (wiring.compute arguments)
  length : standing.combination.latest.length = wiring.sources.length
  calm : network.IsCalm wiring.id
  distinct : wiring.id ∉ wiring.sources
  facets : ∀ source ∈ wiring.sources, ∃ facet,
    network.view.facet source = some facet ∧
      ∀ index, facet.registrations wiring.id index =
        if wiring.sources[index]? = some source then (registered index).toNat
        else 0
  listeners : ∀ source ∈ wiring.sources,
    ∀ listener ∈ network.listeners source,
      Network.IsQuiet network.view.known listener ∨
        ∃ index, listener = .source wiring.id index
  past : ∀ (index : Nat) (value : α),
    standing.combination.latest[index]? = some (some value) →
      ∀ source, wiring.sources[index]? = some source →
        (network.view.value source).isSome = true
  coherent : standing.IsCoherent wiring.compute

namespace Wired

variable {wiring : Wiring α} {registered other : Nat → Bool}
  {network next : Network α} {standing nextStanding : Standing α}
  {source : SignalId}

theorem source_ne (wired : Wired wiring registered network standing)
    (member : source ∈ wiring.sources) : source ≠ wiring.id := by
  rintro rfl
  exact wired.distinct member

theorem exists_signal (wired : Wired wiring registered network standing)
    (member : source ∈ wiring.sources) :
    ∃ signal, network.signal? source = some signal := by
  obtain ⟨facet, isFacet, _⟩ := wired.facets source member
  obtain ⟨signal, isSignal, _⟩ := Option.map_eq_some_iff.mp isFacet
  exact ⟨signal, isSignal⟩

/-- The combination is a listener of exactly the sources with which it is
registered. -/
theorem mem_listeners_iff (wired : Wired wiring registered network standing)
    (member : source ∈ wiring.sources) (index : Nat) :
    .source wiring.id index ∈ network.listeners source ↔
      wiring.sources[index]? = some source ∧ registered index = true := by
  obtain ⟨facet, isFacet, registrations⟩ := wired.facets source member
  obtain ⟨signal, isSignal, rfl⟩ := Option.map_eq_some_iff.mp isFacet
  have count : (network.listeners source).count (.source wiring.id index) =
      if wiring.sources[index]? = some source then (registered index).toNat
      else 0 := by
    rw [← registrations index, Network.listeners, isSignal]
    rfl
  rw [← List.count_pos_iff, count]
  by_cases isSource : wiring.sources[index]? = some source
  · rw [if_pos isSource]
    simp [isSource, Nat.pos_iff_ne_zero]
  · rw [if_neg isSource]
    simp [isSource]

theorem congr_registered (wired : Wired wiring registered network standing)
    (same : ∀ index < wiring.sources.length, other index = registered index) :
    Wired wiring other network standing := by
  refine { wired with facets := fun source member => ?_ }
  obtain ⟨facet, isFacet, registrations⟩ := wired.facets source member
  refine ⟨facet, isFacet, fun index => ?_⟩
  rw [registrations index]
  split
  case isTrue isSource =>
    rw [same index (List.getElem?_eq_some_iff.mp isSource).1]
  · rfl

theorem restand (wired : Wired wiring registered network standing)
    (restands : network.Restands wiring.id nextStanding next)
    (sources : nextStanding.combination.sources = wiring.sources)
    (optional : nextStanding.combination.optional = wiring.optional)
    (total : nextStanding.combination.combine =
      fun arguments => .ok (wiring.compute arguments))
    (length : nextStanding.combination.latest.length = wiring.sources.length)
    (past : ∀ (index : Nat) (value : α),
      nextStanding.combination.latest[index]? = some (some value) →
        ∀ source, wiring.sources[index]? = some source →
          (network.view.value source).isSome = true)
    (coherent : nextStanding.IsCoherent wiring.compute) :
    Wired wiring registered next nextStanding where
  isStanding := restands.standing?_eq wired.isStanding
  named := by
    rw [restands.view]
    unfold View.withStanding View.modify
    dsimp only
    rw [Function.update_self, Option.map_map]
    exact wired.named
  sources := sources
  optional := optional
  total := total
  length := length
  calm := restands.isCalm wired.calm
  distinct := wired.distinct
  facets := by
    intro source member
    rw [restands.view, View.facet_withStanding_of_ne (wired.source_ne member)]
    exact wired.facets source member
  listeners := by
    intro source member listener isListener
    rw [restands.known]
    exact wired.listeners source member listener
      (restands.listeners source listener isListener)
  past := by
    intro index value isKnown source isSource
    have member := List.mem_of_getElem? isSource
    rw [restands.view, View.value_withStanding_of_ne (wired.source_ne member)]
    exact past index value isKnown source isSource
  coherent := coherent

theorem restand_of_keeps (wired : Wired wiring registered network standing)
    (restands : network.Restands wiring.id nextStanding next)
    (keeps : standing.Keeps nextStanding)
    (length : nextStanding.combination.latest.length =
      standing.combination.latest.length)
    (past : ∀ (index : Nat) (value : α),
      nextStanding.combination.latest[index]? = some (some value) →
        ∀ source, wiring.sources[index]? = some source →
          (network.view.value source).isSome = true)
    (coherent : nextStanding.IsCoherent wiring.compute) :
    Wired wiring registered next nextStanding := by
  obtain ⟨latest, stale, isNext⟩ := keeps
  refine wired.restand restands ?_ ?_ ?_ (length.trans wired.length) past
    coherent
  · rw [isNext]
    exact wired.sources
  · rw [isNext]
    exact wired.optional
  · rw [isNext]
    exact wired.total

/-- Other holds and another attachment leave the wiring as it is. -/
theorem restand_modify (wired : Wired wiring registered network standing)
    (change : Combination α → Combination α)
    (same : ∀ combination, ∃ attached holds,
      change combination = { combination with attached, holds }) :
    Wired wiring registered (network.modifyCombination wiring.id change)
      (standing.modify change) := by
  obtain ⟨attached, holds, isChanged⟩ := same standing.combination
  have changed : (standing.modify change).combination =
      { standing.combination with attached, holds } := isChanged
  refine wired.restand (Network.restands_modifyCombination wired.isStanding _)
    ?_ ?_ ?_ ?_ ?_ ?_
  · rw [changed]
    exact wired.sources
  · rw [changed]
    exact wired.optional
  · rw [changed]
    exact wired.total
  · rw [changed]
    exact wired.length
  · rw [changed]
    exact wired.past
  · refine ⟨?_, ?_⟩
    · rw [changed]
      exact wired.coherent.current
    · rw [changed]
      exact wired.coherent.complete

theorem withHeld (wired : Wired wiring registered network standing)
    (held : Table (List SignalId)) :
    Wired wiring registered { network with held } standing :=
  ⟨wired.isStanding, wired.named, wired.sources, wired.optional, wired.total,
    wired.length, ⟨wired.calm.only, wired.calm.quiet⟩, wired.distinct,
    wired.facets, wired.listeners, wired.past, wired.coherent⟩

section ModifyCell

variable {position : Nat} {change : Cell α Listener Text → Cell α Listener Text}

private theorem facets_modifyCell
    (wired : Wired wiring registered network standing)
    (isSource : wiring.sources[position]? = some source)
    (others : ∀ cell index, index ≠ position →
      (change cell).listeners.count (.source wiring.id index) =
        cell.listeners.count (.source wiring.id index))
    (own : ∀ cell, cell.listeners.count (.source wiring.id position) =
        (registered position).toNat →
      (change cell).listeners.count (.source wiring.id position) =
        (other position).toNat)
    (same : ∀ index, index ≠ position → other index = registered index)
    {id : SignalId} (isMember : id ∈ wiring.sources) :
    ∃ facet, (network.modifyCell source change).view.facet id = some facet ∧
      ∀ index, facet.registrations wiring.id index =
        if wiring.sources[index]? = some id then (other index).toNat
        else 0 := by
  obtain ⟨facet, isOld, registrations⟩ := wired.facets id isMember
  rw [network.facet_modifyCell]
  by_cases here : id = source
  · subst here
    obtain ⟨signal, isSignal⟩ := wired.exists_signal isMember
    have counts : ∀ index,
        signal.cell.listeners.count (.source wiring.id index) =
          if wiring.sources[index]? = some id then (registered index).toNat
          else 0 := by
      have same : (network.signal? id).map Signal.facet = some facet := isOld
      rw [isSignal] at same
      cases same
      exact registrations
    rw [if_pos rfl, isSignal]
    refine ⟨_, rfl, fun index => ?_⟩
    by_cases position_eq : index = position
    · subst position_eq
      rw [if_pos isSource]
      refine own signal.cell ?_
      rw [counts, if_pos isSource]
    · rw [same index position_eq, ← counts index]
      exact others signal.cell index position_eq
  · rw [if_neg here]
    refine ⟨facet, isOld, fun index => ?_⟩
    rw [registrations index]
    split
    case isTrue isOther =>
      rw [same index]
      rintro rfl
      rw [isSource] at isOther
      exact here (Option.some.inj isOther).symm
    · rfl

private theorem listeners_modifyCell
    (wired : Wired wiring registered network standing)
    (member : source ∈ wiring.sources)
    (listeners : ∀ cell, ∀ listener ∈ (change cell).listeners,
      listener ∈ cell.listeners ∨ ∃ index, listener = .source wiring.id index)
    {id : SignalId} (isMember : id ∈ wiring.sources) {listener : Listener}
    (isListener :
      listener ∈ (network.modifyCell source change).listeners id) :
    Network.IsQuiet network.view.known listener ∨
      ∃ index, listener = .source wiring.id index := by
  obtain ⟨signal, isSignal⟩ := wired.exists_signal member
  rw [network.listeners_modifyCell] at isListener
  by_cases here : id = source
  · subst here
    rw [if_pos rfl, isSignal] at isListener
    refine (listeners signal.cell listener isListener).elim
      (fun isOld => ?_) .inr
    refine wired.listeners id isMember listener ?_
    rw [Network.listeners, isSignal]
    exact isOld
  · rw [if_neg here] at isListener
    exact wired.listeners id isMember listener isListener

/-- A change of the listeners of one source that registers the combination with
it or takes it off. -/
theorem modifyCell (wired : Wired wiring registered network standing)
    (isSource : wiring.sources[position]? = some source)
    (value : ∀ cell, cell.value.isSome = true →
      (change cell).value.isSome = true)
    (listeners : ∀ cell, ∀ listener ∈ (change cell).listeners,
      listener ∈ cell.listeners ∨ ∃ index, listener = .source wiring.id index)
    (others : ∀ cell index, index ≠ position →
      (change cell).listeners.count (.source wiring.id index) =
        cell.listeners.count (.source wiring.id index))
    (own : ∀ cell, cell.listeners.count (.source wiring.id position) =
        (registered position).toNat →
      (change cell).listeners.count (.source wiring.id position) =
        (other position).toNat)
    (same : ∀ index, index ≠ position → other index = registered index) :
    Wired wiring other (network.modifyCell source change) standing := by
  have member := List.mem_of_getElem? isSource
  have differs := (wired.source_ne member).symm
  obtain ⟨signal, isSignal⟩ := wired.exists_signal member
  have isFacet := fun id => network.facet_modifyCell source id change
  refine { wired with
    isStanding := ?_, named := ?_, calm := ⟨wired.calm.only, ?_⟩
    facets := fun id => wired.facets_modifyCell isSource others own same
    listeners := fun id isMember listener =>
      wired.listeners_modifyCell member listeners isMember
    past := ?_ }
  · rw [View.standing?, isFacet, if_neg differs]
    exact wired.isStanding
  · rw [isFacet, if_neg differs]
    exact wired.named
  · rw [network.listeners_modifyCell, if_neg differs]
    exact wired.calm.quiet
  · intro index known isKnown id isOwn
    have isSome := wired.past index known isKnown id isOwn
    rw [Network.value_view] at isSome ⊢
    rw [network.value?_modifyCell]
    by_cases here : id = source
    · subst here
      rw [Network.value?, isSignal] at isSome
      rw [if_pos rfl, isSignal]
      exact value signal.cell isSome
    · rwa [if_neg here]

end ModifyCell

/-! ## What combinations know of their sources -/

/-- The combination knows the values of its first sources. -/
def Knows (wiring : Wiring α) (count : Nat) (network : Network α)
    (standing : Standing α) : Prop :=
  ∀ index < count, ∀ source, wiring.sources[index]? = some source →
    standing.combination.latest[index]? = some (network.view.value source)

omit [BEq α] in
theorem Knows.of_spares {count : Nat}
    (knows : Knows wiring count network standing)
    (spares : network.Spares wiring.id next)
    (distinct : wiring.id ∉ wiring.sources)
    (latest : nextStanding.combination.latest = standing.combination.latest) :
    Knows wiring count next nextStanding := by
  intro index before source isSource
  have differs : source ≠ wiring.id := by
    rintro rfl
    exact distinct (List.mem_of_getElem? isSource)
  rw [latest, spares.value source differs]
  exact knows index before source isSource

omit [BEq α] in
theorem Knows.withHeld {count : Nat}
    (knows : Knows wiring count network standing)
    (held : Table (List SignalId)) :
    Knows wiring count { network with held } standing :=
  knows

theorem latest_of_unset (wired : Wired wiring registered network standing)
    {index : Nat} (isSource : wiring.sources[index]? = some source)
    (isUnset : network.view.value source = none) :
    standing.combination.latest[index]? = some none := by
  have inside : index < standing.combination.latest.length := by
    rw [wired.length]
    exact (List.getElem?_eq_some_iff.mp isSource).1
  rw [List.getElem?_eq_getElem inside]
  cases isKnown : standing.combination.latest[index] with
  | none =>
      rfl
  | some value =>
      have isSet := wired.past index value
        (List.getElem?_eq_some_iff.mpr ⟨inside, isKnown⟩) source isSource
      rw [isUnset] at isSet
      cases isSet

/-! ## Attaching -/

private theorem head_tail_of_drop {β : Type} {items rest : List β} {item : β}
    {position : Nat} (isRest : items.drop position = item :: rest) :
    items[position]? = some item ∧ items.drop (position + 1) = rest := by
  have isHead : (items.drop position)[0]? = items[position]? :=
    List.getElem?_drop
  rw [isRest] at isHead
  rw [← List.tail_drop, isRest]
  exact ⟨isHead.symm, rfl⟩

theorem register {position : Nat}
    (wired : Wired wiring (fun index => decide (index < position)) network
      standing)
    (isSource : wiring.sources[position]? = some source) :
    Wired wiring (fun index => decide (index < position + 1))
      (network.modifyCell source (·.register (.source wiring.id position)))
      standing := by
  refine wired.modifyCell isSource (fun _ isSome => isSome)
    (fun cell listener member => ?_) (fun cell index ne => ?_)
    (fun cell count => ?_) (fun index ne => ?_)
  · rcases List.mem_append.mp member with isOld | isNew
    · exact .inl isOld
    · exact .inr ⟨position, List.mem_singleton.mp isNew⟩
  · have differs : Listener.source wiring.id position ≠
        .source wiring.id index := by
      intro same
      cases same
      exact ne rfl
    unfold Cell.register
    rw [List.count_append, List.count_singleton, if_neg (by simpa using differs)]
    rfl
  · unfold Cell.register
    rw [List.count_append, count, List.count_singleton_self]
    simp
  · rw [decide_eq_decide]
    omega

omit [BEq α] in
theorem spares_modifyCell (network : Network α) (source : SignalId)
    {change : Cell α Listener Text → Cell α Listener Text}
    (value : ∀ cell, (change cell).value = cell.value) (id : SignalId) :
    network.Spares id (network.modifyCell source change) := by
  refine ⟨fun other _ => ?_, rfl⟩
  rw [Network.value_view, Network.value_view, network.value?_modifyCell]
  split
  case isTrue here =>
    rw [here, Network.value?]
    simp only [value]
  · rfl

theorem Knows.succ {position : Nat} {value : α}
    (knows : Knows wiring position network standing)
    (wired : Wired wiring registered network standing)
    (isSource : wiring.sources[position]? = some source)
    (isValue : network.view.value source = some value)
    (learned : nextStanding.combination.latest =
      standing.combination.latest.set position (some value)) :
    Knows wiring (position + 1) network nextStanding := by
  intro index before other isOther
  rw [learned, List.getElem?_set]
  by_cases here : position = index
  · subst here
    rw [isSource] at isOther
    cases isOther
    have inside : position < standing.combination.latest.length := by
      rw [wired.length]
      exact (List.getElem?_eq_some_iff.mp isSource).1
    rw [if_pos rfl, if_pos inside, isValue]
  · rw [if_neg here]
    exact knows index (by omega) other isOther

theorem past_of_learned {position : Nat} {value : α}
    (wired : Wired wiring registered network standing)
    (isSource : wiring.sources[position]? = some source)
    (isValue : network.view.value source = some value)
    (learned : nextStanding.combination.latest =
      standing.combination.latest.set position (some value)) :
    ∀ (index : Nat) (known : α),
      nextStanding.combination.latest[index]? = some (some known) →
        ∀ other, wiring.sources[index]? = some other →
          (network.view.value other).isSome = true := by
  intro index known isKnown other isOther
  rw [learned, List.getElem?_set] at isKnown
  by_cases here : position = index
  · subst here
    rw [isSource] at isOther
    cases isOther
    rw [isValue]
    rfl
  · rw [if_neg here] at isKnown
    exact wired.past index known isKnown other isOther

/-- A held combination is registered with one more source and hears of it. -/
theorem attach_one {position : Nat}
    (wired : Wired wiring (fun index => decide (index < position)) network
      standing)
    (knows : Knows wiring position network standing)
    (isHeld : standing.combination.holds ≠ 0)
    (isSource : wiring.sources[position]? = some source) :
    ∃ next nextStanding,
      network.attachOne wiring.id position source = ⟨.ok (), next⟩ ∧
        Wired wiring (fun index => decide (index < position + 1)) next
          nextStanding ∧
        Knows wiring (position + 1) next nextStanding ∧
        standing.Keeps nextStanding ∧
        nextStanding.value = standing.value ∧
        nextStanding.computations = standing.computations ∧
        network.Spares wiring.id next := by
  have registered := wired.register isSource
  have sameValues : ∀ cell : Cell α Listener Text,
      (cell.register (.source wiring.id position)).value = cell.value :=
    fun _ => rfl
  have spares := spares_modifyCell network source sameValues wiring.id
  have stillKnows := knows.of_spares spares wired.distinct rfl
  have sameValue := spares.value source
    (wired.source_ne (List.mem_of_getElem? isSource))
  unfold Network.attachOne
  cases isValue : network.value? source with
  | none =>
      rw [network.value_view source, isValue] at sameValue
      refine ⟨_, standing, rfl, registered, fun index before other isOther => ?_,
        ⟨_, _, rfl⟩, rfl, rfl, spares⟩
      rcases Nat.lt_succ_iff_lt_or_eq.mp before with earlier | rfl
      · exact stillKnows index earlier other isOther
      · rw [isSource] at isOther
        cases isOther
        rw [registered.latest_of_unset isSource sameValue, sameValue]
  | some value =>
      rw [network.value_view source, isValue] at sameValue
      obtain ⟨next, nextStanding, told, hears, restands⟩ :=
        Network.deliver_source 999 registered.isStanding registered.calm
          registered.total position value
      obtain ⟨keeps, learned, _, same⟩ := hears.spec
      obtain ⟨nextValue, nextComputations⟩ := same isHeld
      have learns := stillKnows.succ registered isSource sameValue learned
      refine ⟨next, nextStanding, told, ?_,
        learns.of_spares restands.spares wired.distinct rfl, keeps, nextValue,
        nextComputations, spares.trans restands.spares⟩
      refine registered.restand_of_keeps restands keeps ?_
        (registered.past_of_learned isSource sameValue learned)
        (hears.isCoherent wired.coherent)
      rw [learned, List.length_set]

/-- Attaching a held combination registers it with all its sources, and it knows
their values then. -/
theorem attach {position : Nat} {rest : List SignalId}
    (isRest : wiring.sources.drop position = rest)
    (wired : Wired wiring (fun index => decide (index < position)) network
      standing)
    (knows : Knows wiring position network standing)
    (isHeld : standing.combination.holds ≠ 0) :
    ∃ next nextStanding,
      Network.attach wiring.id position network rest = ⟨.ok (), next⟩ ∧
        Wired wiring (fun _ => true) next nextStanding ∧
        Knows wiring wiring.sources.length next nextStanding ∧
        standing.Keeps nextStanding ∧
        nextStanding.value = standing.value ∧
        nextStanding.computations = standing.computations ∧
        network.Spares wiring.id next := by
  -- The sources before the position are registered and known already.
  induction rest generalizing position network standing with
  | nil =>
      have beyond := List.drop_eq_nil_iff.mp isRest
      refine ⟨network, standing, rfl,
        wired.congr_registered fun index inside => ?_,
        fun index inside => knows index (by omega), ⟨_, _, rfl⟩, rfl, rfl,
        .refl network wiring.id⟩
      exact (decide_eq_true (by omega)).symm
  | cons source rest inductionHypothesis =>
      obtain ⟨isSource, isTail⟩ := head_tail_of_drop isRest
      obtain ⟨middle, middleStanding, told, nextWired, nextKnows, keeps, value,
        computations, spares⟩ := wired.attach_one knows isHeld isSource
      obtain ⟨next, nextStanding, attached, allWired, allKnown, allKept,
        nextValue, nextComputations, allSpared⟩ :=
        inductionHypothesis isTail nextWired nextKnows
          (keeps.holds_eq ▸ isHeld)
      refine ⟨next, nextStanding, ?_, allWired, allKnown, keeps.trans allKept,
        nextValue.trans value, nextComputations.trans computations,
        spares.trans allSpared⟩
      rw [Network.attach_cons, told]
      exact attached

/-! ## Detaching -/

theorem unregister {position : Nat}
    (wired : Wired wiring (fun index => decide (position ≤ index)) network
      standing)
    (isSource : wiring.sources[position]? = some source) :
    Wired wiring (fun index => decide (position + 1 ≤ index))
      (network.modifyCell source (·.unregister (.source wiring.id position)))
      standing := by
  refine wired.modifyCell isSource (fun _ isSome => isSome)
    (fun cell listener member => .inl (List.mem_of_mem_erase member))
    (fun cell index ne => ?_) (fun cell count => ?_) (fun index ne => ?_)
  · have differs : Listener.source wiring.id index ≠
        .source wiring.id position := by
      intro same
      cases same
      exact ne rfl
    exact List.count_erase_of_ne differs
  · have once : cell.listeners.count (.source wiring.id position) = 1 := by
      simpa using count
    have none : (decide (position + 1 ≤ position)).toNat = 0 := by
      simp
    unfold Cell.unregister
    rw [List.count_erase_self, once, none]
  · rw [decide_eq_decide]
    omega

/-- Taken off one source after another, the combination is registered with none
in the end. -/
theorem detach {position : Nat} {rest : List SignalId}
    (isRest : wiring.sources.drop position = rest)
    (wired : Wired wiring (fun index => decide (position ≤ index)) network
      standing) :
    Wired wiring (fun _ => false)
        (Network.detach wiring.id position network rest) standing ∧
      network.Spares wiring.id
        (Network.detach wiring.id position network rest) := by
  -- The sources before the position are not registered any more.
  induction rest generalizing position network with
  | nil =>
      have beyond := List.drop_eq_nil_iff.mp isRest
      refine ⟨wired.congr_registered fun index inside => ?_,
        .refl network wiring.id⟩
      exact (decide_eq_false (by omega)).symm
  | cons source rest inductionHypothesis =>
      obtain ⟨isSource, isTail⟩ := head_tail_of_drop isRest
      have sameValues : ∀ cell : Cell α Listener Text,
          (cell.unregister (.source wiring.id position)).value = cell.value :=
        fun _ => rfl
      have spares := spares_modifyCell network source sameValues wiring.id
      obtain ⟨allWired, allSpared⟩ :=
        inductionHypothesis isTail (wired.unregister isSource)
      exact ⟨allWired, spares.trans allSpared⟩

/-! ## Setting sources -/

/-- A source has a value of which nobody was told. -/
theorem withValue (wired : Wired wiring registered network standing)
    (member : source ∈ wiring.sources) (value : α) :
    Wired wiring registered (network.withValue source value) standing := by
  obtain ⟨position, isSource⟩ := List.mem_iff_getElem?.mp member
  exact wired.modifyCell isSource (fun _ _ => rfl)
    (fun _ _ isListener => .inl isListener) (fun _ _ _ => rfl)
    (fun _ count => count) (fun _ _ => rfl)

theorem value_withValue (wired : Wired wiring registered network standing)
    (member : source ∈ wiring.sources) (value : α) (other : SignalId) :
    (network.withValue source value).view.value other =
      if other = source then some value else network.view.value other := by
  obtain ⟨signal, isSignal⟩ := wired.exists_signal member
  rw [Network.value_view, Network.value_view, Network.withValue,
    network.value?_modifyCell, isSignal]
  rfl

/-- What a combination knows after it was told the value of a source. -/
theorem latest_of_told (wired : Wired wiring registered network standing)
    (member : source ∈ wiring.sources) {value : α}
    (told : Told wiring.compute wiring.id value (network.listeners source)
      standing nextStanding) (index : Nat) :
    nextStanding.combination.latest[index]? =
      if wiring.sources[index]? = some source ∧ registered index = true then
        some (some value)
      else standing.combination.latest[index]? := by
  rw [told.latest_eq index]
  simp only [wired.mem_listeners_iff member index]
  split
  case isTrue isTold =>
    have inside : index < standing.combination.latest.length := by
      rw [wired.length]
      exact (List.getElem?_eq_some_iff.mp isTold.1).1
    rw [List.getElem?_eq_getElem inside]
    rfl
  · rfl

/-- A source is set.  The combination hears of it if it is registered, and while
it is held nothing is computed. -/
theorem setSource (wired : Wired wiring registered network standing)
    (member : source ∈ wiring.sources) (value : α) :
    ∃ isNew next nextStanding,
      network.set source value = ⟨.ok isNew, next⟩ ∧
        Wired wiring registered next nextStanding ∧
        standing.Keeps nextStanding ∧
        next.view.held = network.view.held ∧
        ((∀ index, registered index = true) →
          Knows wiring wiring.sources.length network standing →
            Knows wiring wiring.sources.length next nextStanding) ∧
        (standing.combination.holds = 0 →
          standing.combination.stale = false →
            nextStanding.combination.stale = false) ∧
        (standing.combination.holds ≠ 0 →
          nextStanding.value = standing.value ∧
            nextStanding.computations = standing.computations) := by
  obtain ⟨signal, isSignal⟩ := wired.exists_signal member
  rcases Network.setWithin_source 998 (wired.source_ne member)
    wired.isStanding wired.calm wired.total isSignal
    (wired.listeners source member) value with
    ⟨_, _, _, unchanged⟩ | ⟨next, nextStanding, isSet, told, restands⟩
  · exact ⟨false, network, standing, unchanged, wired, ⟨_, _, rfl⟩, rfl,
      fun _ knows => knows, fun _ fresh => fresh, fun _ => ⟨rfl, rfl⟩⟩
  · have hasValue := wired.withValue member value
    have spares := restands.spares
    have isValue := wired.value_withValue member value
    have isKnown := wired.latest_of_told member told
    refine ⟨true, next, nextStanding, isSet, ?_, told.keeps,
      spares.held, fun all knows => ?_, told.free, told.held⟩
    · refine hasValue.restand_of_keeps restands told.keeps told.length_eq ?_
        (told.isCoherent wired.coherent)
      intro index known isLatest other isOther
      rw [isKnown] at isLatest
      split at isLatest
      case isTrue isTold =>
        have same : other = source :=
          Option.some.inj (isOther.symm.trans isTold.1)
        rw [isValue, if_pos same]
        rfl
      case isFalse =>
        exact hasValue.past index known isLatest other isOther
    · -- Registered with all its sources, it is told the one that changed under
      -- every number that the source has, and no other changed.
      intro index inside other isOther
      rw [spares.value other (wired.source_ne (List.mem_of_getElem? isOther)),
        isValue, isKnown]
      by_cases here : other = source
      · rw [if_pos here, if_pos ⟨here ▸ isOther, all index⟩]
      · rw [if_neg here, if_neg]
        · exact knows index inside other isOther
        · rintro ⟨isSource, _⟩
          exact here (Option.some.inj (isOther.symm.trans isSource))

end Wired

end CurrencyPad
