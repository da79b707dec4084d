import CurrencyPad.Proofs.Signal.Changes
import CurrencyPad.Proofs.Signal.Turns
import CurrencyPad.Signal.Network

/-!
# Requests for the first value

A request that has its turn while the signal has a value is answered at once.
Others wait for the first value that is set, and are answered with it in a later
turn, whatever is set meanwhile and whichever listener fails.  No request waits
while there is a value, and none does that is over.
-/

namespace CurrencyPad

variable {α : Type}

namespace ReadState

/-- A turn leads to an answer, unless there is no value yet. -/
def afterTurn (isSet : Bool) : ReadState α → ReadState α
  | .requested => if isSet then .over else .waiting
  | .waiting => .waiting
  | _ => .over

def afterCancel : ReadState α → ReadState α
  | .over => .over
  | _ => .cancelled

/-- The first value goes to those who wait. -/
def afterSet (value : α) : ReadState α → ReadState α
  | .waiting => .received value
  | state => state

/-- The answer in a turn while the signal has a value or none. -/
def answer (value? : Option α) : ReadState α → Option (Option α)
  | .requested => value?.map some
  | .received value => some (some value)
  | .cancelled => some none
  | _ => none

end ReadState

namespace Network

variable {network next : Network α} {id : SignalId} {name : Text} {value : α}

/-! ## Orderly requests -/

/-- All requests are for the signal.  Those that wait are in its list, in which
all others are cancelled ones, and the list is empty while there is a value. -/
structure Orderly (id : SignalId) (network : Network α) : Prop where
  exists_signal : (network.signal? id).isSome = true
  own : ∀ entry ∈ network.reads, entry.2.signal = id
  idle : (network.value? id).isSome = true → network.waiters id = []
  listed : ∀ name, network.state? name = some .waiting →
    name ∈ network.waiters id
  waits : ∀ name ∈ network.waiters id,
    network.state? name = some .waiting ∨ network.state? name = some .cancelled
  distinct : (network.waiters id).Nodup

/-- Nobody waits while there is a value. -/
theorem Orderly.value?_of_waiting (orderly : Orderly id network)
    (isWaiting : network.state? name = some .waiting) :
    network.value? id = none := by
  by_contra isSet
  have member := orderly.listed name isWaiting
  rw [orderly.idle (Option.isSome_iff_ne_none.mpr isSet)] at member
  cases member

/-- The requests for the signal come no further, and it has a value if it had
one. -/
structure Undisturbed (id : SignalId) (network next : Network α) : Prop where
  reads : next.reads = network.reads
  waiters : next.waiters id = network.waiters id
  isSet : (next.value? id).isSome = (network.value? id).isSome
  exists_signal : (next.signal? id).isSome = (network.signal? id).isSome

theorem Undisturbed.refl (id : SignalId) (network : Network α) :
    Undisturbed id network network :=
  ⟨rfl, rfl, rfl, rfl⟩

theorem Undisturbed.trans {last : Network α}
    (first : Undisturbed id network next) (second : Undisturbed id next last) :
    Undisturbed id network last :=
  ⟨second.reads.trans first.reads, second.waiters.trans first.waiters,
    second.isSet.trans first.isSet,
    second.exists_signal.trans first.exists_signal⟩

theorem Undisturbed.state? (undisturbed : Undisturbed id network next) :
    next.state? = network.state? := by
  funext name
  rw [Network.state?, undisturbed.reads, Network.state?]

theorem Orderly.of_undisturbed (orderly : Orderly id network)
    (undisturbed : Undisturbed id network next) : Orderly id next where
  exists_signal := undisturbed.exists_signal.trans orderly.exists_signal
  own := by
    rw [undisturbed.reads]
    exact orderly.own
  idle := by
    rw [undisturbed.isSet, undisturbed.waiters]
    exact orderly.idle
  listed := by
    rw [undisturbed.state?, undisturbed.waiters]
    exact orderly.listed
  waits := by
    rw [undisturbed.state?, undisturbed.waiters]
    exact orderly.waits
  distinct := by
    rw [undisturbed.waiters]
    exact orderly.distinct

theorem waiters_modifyCell (network : Network α) (id other : SignalId)
    (change : Cell α Listener Text → Cell α Listener Text) :
    (network.modifyCell id change).waiters other =
      if other = id then
        ((network.signal? id).map fun signal =>
          (change signal.cell).waiters).getD []
      else network.waiters other := by
  rw [waiters, modifyCell, signal?_modifySignal, waiters]
  split
  · rw [Option.map_map]
    rfl
  · rfl

theorem isSome_signal?_modifySignal (network : Network α) (id other : SignalId)
    (change : Signal α → Signal α) :
    ((network.modifySignal id change).signal? other).isSome =
      (network.signal? other).isSome := by
  rw [signal?_modifySignal]
  split
  case isTrue same =>
    rw [same, Option.isSome_map]
  case isFalse =>
    rfl

/-- A change of a signal that leaves the waiters of its cell, and whether it has a
value. -/
theorem undisturbed_modifySignal {other : SignalId}
    {change : Signal α → Signal α}
    (waiters : ∀ signal, (change signal).cell.waiters = signal.cell.waiters)
    (value : ∀ signal, (change signal).cell.value = signal.cell.value) :
    Undisturbed id network (network.modifySignal other change) := by
  refine ⟨rfl, ?_, ?_, isSome_signal?_modifySignal ..⟩
  · rw [Network.waiters, signal?_modifySignal, Network.waiters]
    split
    case isTrue same =>
      rw [same, Option.map_map]
      simp only [Function.comp_def, waiters]
    case isFalse =>
      rfl
  · rw [value?, signal?_modifySignal, value?]
    split
    case isTrue same =>
      rw [same, Option.bind_map]
      simp only [Function.comp_def, value]
    case isFalse =>
      rfl

theorem undisturbed_cancel (network : Network α) (name : Text) :
    Undisturbed id network (network.cancel name).network := by
  unfold cancel
  split
  · exact .refl id network
  case h_2 subscription _ =>
    split
    · have unregistered : Undisturbed id network
          (network.modifyCell subscription.signal
            (·.unregister subscription.listener)) :=
        undisturbed_modifySignal (fun _ => rfl) fun _ => rfl
      exact unregistered.trans ⟨rfl, rfl, rfl, rfl⟩
    · exact .refl id network

/-- A request under some name when the waiting ones receive a value. -/
def resolved (id : SignalId) (waiting : List Text) (value : α) (name : Text)
    (read : SignalRead α) : SignalRead α :=
  match read.state with
  | .waiting =>
    if read.signal = id ∧ waiting.contains name then
      { read with state := .received value }
    else read
  | _ => read

theorem resolve_eq (network : Network α) (id : SignalId) (waiting : List Text)
    (value : α) :
    network.resolve id waiting value =
      { network with
        reads := network.reads.map fun entry =>
          (entry.1, resolved id waiting value entry.1 entry.2) } := by
  unfold resolve
  congr 1
  refine List.map_congr_left fun entry _ => ?_
  obtain ⟨name, signal, state⟩ := entry
  unfold resolved
  cases state with
  | waiting =>
      dsimp only
      split <;> rfl
  | _ =>
      rfl

/-- Requests for another signal receive nothing, and none does if nobody waits. -/
theorem reads_resolve (own : ∀ entry ∈ network.reads, entry.2.signal = id)
    {other : SignalId} {waiting : List Text}
    (nobody : other = id → waiting = []) :
    (network.resolve other waiting value).reads = network.reads := by
  rw [resolve_eq]
  have same : ∀ entry ∈ network.reads,
      (entry.1, resolved other waiting value entry.1 entry.2) = entry := by
    intro entry member
    have notResolved : ¬ (entry.2.signal = other ∧
        waiting.contains entry.1 = true) := by
      rintro ⟨isOther, isWaiting⟩
      rw [nobody (isOther.symm.trans (own entry member))] at isWaiting
      cases isWaiting
    unfold resolved
    split
    · rw [if_neg notResolved]
    · rfl
  exact (List.map_congr_left same).trans (List.map_id' _)

theorem isSome_signal?_store (network : Network α) (id : SignalId) (value : α)
    (other : SignalId) :
    ((network.store id value).signal? other).isSome =
      (network.signal? other).isSome := by
  unfold store
  split
  · rfl
  · exact isSome_signal?_modifySignal network id other _

theorem reads_store {signal : Signal α}
    (isSignal : network.signal? id = some signal) (value : α) :
    (network.store id value).reads =
      (network.resolve id signal.cell.waiters value).reads := by
  unfold store
  rw [isSignal]
  rfl

theorem waiters_store {signal : Signal α}
    (isSignal : network.signal? id = some signal) (value : α)
    (other : SignalId) :
    (network.store id value).waiters other =
      if other = id then [] else network.waiters other := by
  have stored := network.waiters_modifyCell id other fun _ =>
    { signal.cell with value := some value, waiters := [] }
  rw [isSignal] at stored
  unfold store
  rw [isSignal]
  exact stored

theorem value?_store {signal : Signal α}
    (isSignal : network.signal? id = some signal) (value : α)
    (other : SignalId) :
    (network.store id value).value? other =
      if other = id then some value else network.value? other := by
  have stored := congrFun (congrArg Scene.value (scene_store isSignal value))
    other
  exact stored.trans (Function.update_apply ..)

/-- Setting another signal resolves no request for this one, and no more does a
change of this one once it has a value. -/
theorem Change.undisturbed {may : SignalId → Prop}
    (own : ∀ entry ∈ network.reads, entry.2.signal = id)
    (calm : may id →
      (network.value? id).isSome = true ∧ network.waiters id = [])
    (change : Change may network next) : Undisturbed id network next := by
  cases change with
  | note call =>
      exact ⟨rfl, rfl, rfl, rfl⟩
  | setStale other stale =>
      exact undisturbed_modifySignal (fun _ => rfl) fun _ => rfl
  | learn other index value =>
      exact undisturbed_modifySignal (fun _ => rfl) fun _ => rfl
  | cancel name =>
      exact undisturbed_cancel network name
  | store other value allowed =>
      cases isSignal : network.signal? other with
      | none =>
          unfold Network.store
          rw [isSignal]
          exact .refl id network
      | some signal =>
          have nobody : other = id → signal.cell.waiters = [] := by
            rintro rfl
            obtain ⟨-, empty⟩ := calm allowed
            rwa [Network.waiters, isSignal] at empty
          refine ⟨?_, ?_, ?_, isSome_signal?_store ..⟩
          · rw [reads_store isSignal]
            exact reads_resolve own nobody
          · rw [waiters_store isSignal]
            split
            case isTrue same =>
              exact (calm (same ▸ allowed)).2.symm
            case isFalse =>
              rfl
          · rw [value?_store isSignal]
            split
            case isTrue same =>
              exact (calm (same ▸ allowed)).1.symm
            case isFalse =>
              rfl

theorem Changes.undisturbed {may : SignalId → Prop}
    (own : ∀ entry ∈ network.reads, entry.2.signal = id)
    (calm : may id →
      (network.value? id).isSome = true ∧ network.waiters id = [])
    (changes : Changes may network next) : Undisturbed id network next := by
  induction changes with
  | refl =>
      exact .refl id network
  | tail _ change inductionHypothesis =>
      refine inductionHypothesis.trans (change.undisturbed ?_ fun allowed => ?_)
      · rw [inductionHypothesis.reads]
        exact own
      · rw [inductionHypothesis.isSet, inductionHypothesis.waiters]
        exact calm allowed

/-! ## Single changes of requests -/

/-- The network in which a request has come to some state. -/
def mark (network : Network α) (name : Text) (state : ReadState α)
    (id : SignalId) : Network α :=
  { network with reads := network.reads.set name ⟨id, state⟩ }

theorem state?_mark (network : Network α) (name : Text) (state : ReadState α)
    (id : SignalId) (other : Text) :
    (network.mark name state id).state? other =
      if name = other then some state else network.state? other := by
  have found : (network.mark name state id).reads.get? other = _ :=
    Table.get?_set network.reads name other ⟨id, state⟩
  rw [state?, found, state?]
  split <;> rfl

/-- A request may come to a state in which it does not wait, if it is in no list
or is cancelled. -/
theorem Orderly.mark (orderly : Orderly id network) {state : ReadState α}
    (waitsNot : state ≠ .waiting)
    (inList : name ∈ network.waiters id → state = .cancelled) :
    Orderly id (network.mark name state id) where
  exists_signal := orderly.exists_signal
  own entry member := by
    rcases Table.mem_set member with isOld | rfl
    · exact orderly.own entry isOld
    · rfl
  idle := orderly.idle
  listed other isWaiting := by
    rw [state?_mark] at isWaiting
    split at isWaiting
    · exact absurd (Option.some.inj isWaiting) waitsNot
    · exact orderly.listed other isWaiting
  waits other member := by
    rw [state?_mark]
    split
    case isTrue same =>
      exact .inr (congrArg some (inList (same ▸ member)))
    case isFalse =>
      exact orderly.waits other member
  distinct := orderly.distinct

theorem value?_await (network : Network α) (id : SignalId) (name : Text) :
    ((network.modifyCell id (·.await name)).mark name .waiting id).value? id =
      network.value? id := by
  refine (network.value?_modifyCell id id (·.await name)).trans ?_
  rw [if_pos rfl]
  rfl

/-- A request that finds no value waits for one. -/
theorem Orderly.await (orderly : Orderly id network)
    (isUnset : network.value? id = none) (absent : name ∉ network.waiters id) :
    Orderly id
      ((network.modifyCell id (·.await name)).mark name .waiting id) := by
  obtain ⟨signal, isSignal⟩ := Option.isSome_iff_exists.mp orderly.exists_signal
  have waiters : ((network.modifyCell id (·.await name)).mark name .waiting
      id).waiters id = network.waiters id ++ [name] := by
    refine (network.waiters_modifyCell id id (·.await name)).trans ?_
    rw [if_pos rfl, isSignal, Network.waiters, isSignal]
    rfl
  have state : ∀ other, ((network.modifyCell id (·.await name)).mark name
      .waiting id).state? other =
        if name = other then some .waiting else network.state? other :=
    state?_mark (network.modifyCell id (·.await name)) name .waiting id
  refine ⟨?_, fun entry member => ?_, fun isSet => ?_, fun other isWaiting => ?_,
    fun other member => ?_, ?_⟩
  · exact (network.isSome_signal?_modifySignal ..).trans orderly.exists_signal
  · rcases Table.mem_set member with isOld | rfl
    · exact orderly.own entry isOld
    · rfl
  · rw [value?_await, isUnset] at isSet
    cases isSet
  · rw [waiters, List.mem_append, List.mem_singleton]
    rw [state] at isWaiting
    split at isWaiting
    case isTrue same =>
      exact .inr same.symm
    case isFalse =>
      exact .inl (orderly.listed other isWaiting)
  · rw [waiters, List.mem_append, List.mem_singleton] at member
    rw [state]
    split
    case isTrue =>
      exact .inl rfl
    case isFalse differs =>
      exact orderly.waits other
        (member.resolve_right fun same => differs same.symm)
  · rw [waiters, List.nodup_append]
    refine ⟨orderly.distinct, List.nodup_singleton name, ?_⟩
    rintro other isOld new isNew rfl
    exact absent (List.mem_singleton.mp isNew ▸ isOld)

theorem state?_finish (network : Network α) (name other : Text) :
    (network.finish name).state? other =
      if other = name then (network.state? other).map fun _ => .over
      else network.state? other := by
  rw [state?, get?_finish, Option.map_map, state?]
  unfold closed Function.comp
  split
  · rw [Option.map_map]
    rfl
  · rfl

theorem waiters_finish (network : Network α) (name : Text) (id : SignalId) :
    (network.finish name).waiters id = (network.waiters id).erase name := by
  rw [waiters, signal?_finish, waiters]
  cases network.signal? id <;> rfl

theorem Orderly.finish (orderly : Orderly id network) (name : Text) :
    Orderly id (network.finish name) := by
  refine ⟨?_, fun entry member => ?_, fun isSet => ?_, fun other isWaiting => ?_,
    fun other member => ?_, ?_⟩
  · rw [signal?_finish, Option.isSome_map]
    exact orderly.exists_signal
  · obtain ⟨old, isOld, rfl⟩ := List.mem_map.mp member
    have same : (closed name old.1 old.2).signal = old.2.signal := by
      unfold closed
      split <;> rfl
    exact same.trans (orderly.own old isOld)
  · rw [value?_finish] at isSet
    rw [waiters_finish, orderly.idle isSet]
    rfl
  · rw [state?_finish] at isWaiting
    rw [waiters_finish]
    split at isWaiting
    case isTrue =>
      cases isState : network.state? other with
      | none =>
          rw [isState] at isWaiting
          cases isWaiting
      | some state =>
          rw [isState] at isWaiting
          cases isWaiting
    case isFalse differs =>
      exact (List.mem_erase_of_ne differs).mpr (orderly.listed other isWaiting)
  · rw [waiters_finish, orderly.distinct.mem_erase_iff] at member
    rw [state?_finish, if_neg member.1]
    exact orderly.waits other member.2
  · rw [waiters_finish]
    exact orderly.distinct.erase name

/-! ## Turns -/

theorem ready?_eq (network : Network α) (name : Text) :
    network.ready? name =
      (network.state? name).bind (ReadState.answer none) := by
  unfold ready? state?
  rw [Option.bind_map]
  congr 1
  funext read
  obtain ⟨signal, state⟩ := read
  cases state <;> rfl

theorem look_eq (orderly : Orderly id network) (name : Text) :
    network.look name =
      match network.state? name, network.value? id with
      | some .requested, some value =>
        network.mark name (.received value) id
      | some .requested, none =>
        (network.modifyCell id (·.await name)).mark name .waiting id
      | _, _ => network := by
  unfold look state?
  cases isRead : network.reads.get? name with
  | none =>
      rfl
  | some read =>
      have own := orderly.own _ (Table.mem_of_get? isRead)
      obtain ⟨signal, state⟩ := read
      have same : signal = id := own
      subst same
      rw [Option.map_some]
      unfold begin
      cases state with
      | requested =>
          dsimp only
          cases network.value? signal <;> rfl
      | _ =>
          rfl

/-- What a turn does to a request is told by how far it has come. -/
theorem turn_eq (orderly : Orderly id network) (name : Text) :
    network.turn name =
      match network.state? name, network.value? id with
      | some .requested, some value =>
        (some (some value), (network.mark name (.received value) id).finish name)
      | some .requested, none =>
        (none, (network.modifyCell id (·.await name)).mark name .waiting id)
      | some (.received value), _ =>
        (some (some value), network.finish name)
      | some .cancelled, _ => (some none, network.finish name)
      | _, _ => (none, network) := by
  have marked : ∀ (network : Network α) (state : ReadState α),
      (network.mark name state id).ready? name = state.answer none := by
    intro network state
    rw [ready?_eq, state?_mark, if_pos rfl]
    rfl
  unfold turn
  rw [look_eq orderly]
  cases isState : network.state? name with
  | none =>
      dsimp only
      rw [ready?_eq, isState]
      rfl
  | some state =>
      cases state with
      | requested =>
          cases network.value? id with
          | some value =>
              dsimp only
              rw [marked]
              rfl
          | none =>
              dsimp only
              rw [marked]
              rfl
      | _ =>
          dsimp only
          rw [ready?_eq, isState]
          rfl

theorem state?_finish_mark (network : Network α) (name : Text)
    (state : ReadState α) (id : SignalId) (other : Text) :
    ((network.mark name state id).finish name).state? other =
      if name = other then some .over else network.state? other := by
  rw [state?_finish, state?_mark]
  by_cases same : name = other
  · rw [if_pos same, if_pos same.symm, if_pos same]
    rfl
  · rw [if_neg same, if_neg (Ne.symm same), if_neg same]

/-- How far a request has come after the turn of one of them. -/
def stateAfterTurn (network : Network α) (id : SignalId) (name other : Text) :
    Option (ReadState α) :=
  if name = other then
    (network.state? other).map (ReadState.afterTurn (network.value? id).isSome)
  else network.state? other

/-- A turn may leave its request as it is. -/
theorem state?_of_stays {state : Option (ReadState α)}
    (isState : network.state? name = state)
    (stays : state.map (ReadState.afterTurn (network.value? id).isSome) = state)
    (other : Text) :
    network.state? other = network.stateAfterTurn id name other := by
  unfold stateAfterTurn
  split
  case isTrue here =>
    rw [← here, isState, stays]
  case isFalse =>
    rfl

/-- A turn may be the end of its request. -/
theorem state?_of_ends {state : ReadState α}
    (isState : network.state? name = some state)
    (ends : state.afterTurn (network.value? id).isSome = .over) (other : Text) :
    (network.finish name).state? other =
      network.stateAfterTurn id name other := by
  rw [state?_finish, stateAfterTurn]
  by_cases here : name = other
  · rw [if_pos here, if_pos here.symm, ← here, isState, Option.map_some,
      Option.map_some, ends]
  · rw [if_neg here, if_neg (Ne.symm here)]

/-- Who has not looked yet does not wait. -/
theorem Orderly.not_mem_waiters (orderly : Orderly id network)
    (requested : network.state? name = some .requested) :
    name ∉ network.waiters id := by
  intro member
  have waits := orderly.waits name member
  rw [requested] at waits
  simp at waits

/-- Who looks while there is a value receives it at once. -/
theorem turn_of_value (orderly : Orderly id network)
    (requested : network.state? name = some .requested) {value : α}
    (isValue : network.value? id = some value) :
    let after := (network.mark name (.received value) id).finish name
    Orderly id after ∧
      (∀ other, after.state? other = network.stateAfterTurn id name other) ∧
      after.value? id = network.value? id := by
  intro after
  have absent := orderly.not_mem_waiters requested
  have marked : Orderly id (network.mark name (.received value) id) :=
    orderly.mark nofun fun member => absurd member absent
  refine ⟨marked.finish name, fun other => ?_, ?_⟩
  · rw [state?_finish_mark, stateAfterTurn]
    split
    case isTrue here =>
      rw [← here, requested, isValue]
      rfl
    case isFalse =>
      rfl
  · rw [value?_finish]
    rfl

/-- Who looks while there is no value waits. -/
theorem turn_of_no_value (orderly : Orderly id network)
    (requested : network.state? name = some .requested)
    (isValue : network.value? id = none) :
    let after := (network.modifyCell id (·.await name)).mark name .waiting id
    Orderly id after ∧
      (∀ other, after.state? other = network.stateAfterTurn id name other) ∧
      after.value? id = network.value? id := by
  intro after
  refine ⟨orderly.await isValue (orderly.not_mem_waiters requested),
    fun other => ?_, value?_await network id name⟩
  refine (state?_mark (network.modifyCell id (·.await name)) name .waiting id
    other).trans ?_
  rw [stateAfterTurn]
  split
  case isTrue here =>
    rw [← here, requested, isValue]
    rfl
  case isFalse =>
    rfl

/-- A turn of an orderly request. -/
theorem turn_spec (orderly : Orderly id network) (name : Text) :
    (network.turn name).1 =
        (network.state? name).bind (ReadState.answer (network.value? id)) ∧
      Orderly id (network.turn name).2 ∧
      (∀ other, (network.turn name).2.state? other =
        network.stateAfterTurn id name other) ∧
      ((network.turn name).2.value? id).isSome =
        (network.value? id).isSome := by
  have value_finish : ((network.finish name).value? id).isSome =
      (network.value? id).isSome := by
    rw [value?_finish]
  rw [turn_eq orderly]
  cases isState : network.state? name with
  | none =>
      exact ⟨rfl, orderly, state?_of_stays isState rfl, rfl⟩
  | some state =>
      cases state with
      | requested =>
          cases isValue : network.value? id with
          | some value =>
              obtain ⟨next, states, sameValue⟩ :=
                turn_of_value orderly isState isValue
              refine ⟨rfl, next, states, ?_⟩
              rw [sameValue, isValue]
          | none =>
              obtain ⟨next, states, sameValue⟩ :=
                turn_of_no_value orderly isState isValue
              refine ⟨rfl, next, states, ?_⟩
              rw [sameValue, isValue]
      | received value =>
          exact ⟨rfl, orderly.finish name, state?_of_ends isState rfl,
            value_finish⟩
      | cancelled =>
          exact ⟨rfl, orderly.finish name, state?_of_ends isState rfl,
            value_finish⟩
      | _ =>
          exact ⟨rfl, orderly, state?_of_stays isState rfl, rfl⟩

end Network

/-! ## Steps -/

namespace Requests

open Network

variable {network next : Network α} {id : SignalId} {name : Text} {value : α}

inductive Step (α : Type) where
  | request (name : Text)
  | turn (name : Text)
  | cancel (name : Text)
  | set (value : α)
  | subscribe (name : Text) (listener : Listener) (replay : Bool)
  | unsubscribe (name : Text)

def perform [BEq α] (id : SignalId) (network : Network α) :
    Step α → Network α
  | .request name => network.request name id
  | .turn name => (network.turn name).2
  | .cancel name => (network.cancelRequest name).network
  | .set value => (network.set id value).network
  | .subscribe name listener replay =>
      (network.subscribe name id listener replay).network
  | .unsubscribe name => (network.cancel name).network

/-- How far a request has come after a step, given the value before it. -/
def Step.advance (value? : Option α) (name : Text)
    (state? : Option (ReadState α)) : Step α → Option (ReadState α)
  | .request other => if other = name then some .requested else state?
  | .turn other =>
      if other = name then state?.map (ReadState.afterTurn value?.isSome)
      else state?
  | .cancel other =>
      if other = name then state?.map ReadState.afterCancel else state?
  | .set value =>
      if value?.isSome then state? else state?.map (ReadState.afterSet value)
  | _ => state?

def Step.isSet : Step α → Bool
  | .set _ => true
  | _ => false

/-- The requests are orderly after a step, and came along as it says. -/
structure Advances (id : SignalId) (network : Network α) (step : Step α)
    (next : Network α) : Prop where
  orderly : Orderly id next
  state : ∀ name, next.state? name =
    step.advance (network.value? id) name (network.state? name)
  isSet : (next.value? id).isSome =
    ((network.value? id).isSome || step.isSet)

theorem advances_of_undisturbed (orderly : Orderly id network) {step : Step α}
    (undisturbed : Undisturbed id network next)
    (state : ∀ name,
      step.advance (network.value? id) name (network.state? name) =
        network.state? name)
    (isSet : (network.value? id).isSome = true ∨ step.isSet = false) :
    Advances id network step next := by
  refine ⟨orderly.of_undisturbed undisturbed, fun name => ?_, ?_⟩
  · rw [state, undisturbed.state?]
  · rw [undisturbed.isSet]
    rcases isSet with isSet | isSet <;> simp [isSet]

theorem advances_request (orderly : Orderly id network)
    (fresh : network.state? name = none) :
    Advances id network (.request name) (network.request name id) := by
  have absent : name ∉ network.waiters id := by
    intro member
    have waits := orderly.waits name member
    rw [fresh] at waits
    simp at waits
  exact ⟨orderly.mark nofun fun member => absurd member absent,
    fun other => state?_mark network name .requested id other,
    (Bool.or_false _).symm⟩

theorem advances_turn (orderly : Orderly id network) (name : Text) :
    Advances id network (.turn name) (network.turn name).2 := by
  obtain ⟨_, nextOrderly, state, isSet⟩ := turn_spec orderly name
  exact ⟨nextOrderly, state, isSet.trans (Bool.or_false _).symm⟩

theorem advances_cancel (orderly : Orderly id network) (name : Text) :
    Advances id network (.cancel name)
      (network.cancelRequest name).network := by
  have stays : ∀ {state : Option (ReadState α)},
      network.state? name = state →
      state.map ReadState.afterCancel = state →
      Advances id network (.cancel name) network := by
    rintro state isState same
    refine advances_of_undisturbed orderly (.refl id network) (fun other => ?_)
      (.inr rfl)
    rw [Step.advance]
    split
    case isTrue here =>
      rw [← here, isState, same]
    case isFalse =>
      rfl
  unfold cancelRequest
  cases isRead : network.reads.get? name with
  | none =>
      have isState : network.state? name = none := by
        rw [Network.state?, isRead]
        rfl
      exact stays isState rfl
  | some read =>
      have own := orderly.own _ (Table.mem_of_get? isRead)
      have isState : network.state? name = some read.state := by
        rw [Network.state?, isRead]
        rfl
      obtain ⟨signal, state⟩ := read
      have same : signal = id := own
      subst same
      have cancelled : state.afterCancel = .cancelled →
          Advances signal network (.cancel name)
            (network.mark name .cancelled signal) := by
        intro isCancelled
        refine ⟨orderly.mark nofun fun _ => rfl, fun other => ?_,
          (Bool.or_false _).symm⟩
        rw [state?_mark, Step.advance]
        split
        case isTrue here =>
          rw [← here, isState, Option.map_some, isCancelled]
        case isFalse =>
          rfl
      cases state with
      | requested | waiting | received | cancelled =>
          exact cancelled rfl
      | _ =>
          exact stays isState rfl

/-! ### Sets -/

theorem isClosed_all (start : Scene α) : IsClosed start fun _ => True :=
  fun _ _ _ _ _ _ => trivial

/-- The first value is received by all who wait. -/
theorem state?_store (orderly : Orderly id network) (value : α) (name : Text) :
    (network.store id value).state? name =
      (network.state? name).map (ReadState.afterSet value) := by
  obtain ⟨signal, isSignal⟩ := Option.isSome_iff_exists.mp orderly.exists_signal
  have found : (network.resolve id signal.cell.waiters value).reads.get? name =
      (network.reads.get? name).map
        (resolved id signal.cell.waiters value name) := by
    rw [resolve_eq]
    exact Table.get?_mapEntries (resolved id signal.cell.waiters value)
      network.reads name
  rw [Network.state?, reads_store isSignal, found, Network.state?]
  cases isRead : network.reads.get? name with
  | none =>
      rfl
  | some read =>
      have own := orderly.own _ (Table.mem_of_get? isRead)
      have listed := orderly.listed name
      rw [Network.state?, isRead, Network.waiters, isSignal] at listed
      obtain ⟨other, state⟩ := read
      have same : other = id := own
      subst same
      unfold resolved
      cases state with
      | waiting =>
          have isListed : name ∈ signal.cell.waiters := listed rfl
          simp [isListed, ReadState.afterSet]
      | _ =>
          rfl

theorem orderly_store (orderly : Orderly id network) (value : α) :
    Orderly id (network.store id value) := by
  obtain ⟨signal, isSignal⟩ := Option.isSome_iff_exists.mp orderly.exists_signal
  have waiters : (network.store id value).waiters id = [] := by
    rw [waiters_store isSignal, if_pos rfl]
  refine ⟨?_, fun entry member => ?_, fun _ => waiters, fun name isWaiting => ?_,
    fun name member => ?_, ?_⟩
  · rw [isSome_signal?_store]
    exact orderly.exists_signal
  · rw [reads_store isSignal, resolve_eq] at member
    obtain ⟨old, isOld, rfl⟩ := List.mem_map.mp member
    have same : (resolved id signal.cell.waiters value old.1 old.2).signal =
        old.2.signal := by
      unfold resolved
      split
      · split <;> rfl
      · rfl
    exact same.trans (orderly.own old isOld)
  · rw [state?_store orderly] at isWaiting
    obtain ⟨state, _, isAfter⟩ := Option.map_eq_some_iff.mp isWaiting
    cases state <;> cases isAfter
  · rw [waiters] at member
    cases member
  · rw [waiters]
    exact List.nodup_nil

variable [BEq α]

theorem advances_set (orderly : Orderly id network) (value : α) :
    Advances id network (.set value) (network.set id value).network := by
  obtain ⟨signal, isSignal⟩ := Option.isSome_iff_exists.mp orderly.exists_signal
  have closed := isClosed_all network.scene
  cases isValue : network.value? id with
  | some old =>
      -- Whoever may still be told, nobody waits.
      have isSet : (network.value? id).isSome = true := by
        rw [isValue]
        rfl
      have changes := changes_setWithin closed depthLimit network id value
        (.refl _) trivial
      refine advances_of_undisturbed orderly
        (changes.undisturbed orderly.own fun _ => ⟨isSet, orderly.idle isSet⟩)
        (fun name => ?_) (.inl isSet)
      rw [Step.advance, if_pos isSet]
  | none =>
      have unset : signal.cell.value = none := by
        rw [Network.value?, isSignal] at isValue
        exact isValue
      have stored := orderly_store orderly value
      have isStored : ((network.store id value).value? id).isSome = true := by
        rw [value?_store isSignal, if_pos rfl]
        rfl
      -- The waiters have received the value before anyone else is told of it.
      have changes : Changes (fun _ => True) (network.store id value)
          (deliverAll (setWithin 999) value (network.store id value)
            signal.cell.listeners).network :=
        changes_deliverAll (changes_setWithin closed 999)
          (fun _ _ _ _ => trivial)
          (scene_store isSignal value ▸ Scene.shrinks_put _ _ _)
      have undisturbed := changes.undisturbed stored.own fun _ =>
        ⟨isStored, stored.idle isStored⟩
      unfold Network.set depthLimit
      have isNew : ¬ signal.cell.value.any (· == value) = true := by
        rw [unset]
        exact Bool.false_ne_true
      rw [setWithin_succ 999 isSignal, if_neg isNew, network_andThen_done]
      refine ⟨stored.of_undisturbed undisturbed, fun name => ?_, ?_⟩
      · rw [undisturbed.state?, state?_store orderly, isValue]
        rfl
      · rw [undisturbed.isSet, isStored, isValue]
        rfl

/-! ### Subscriptions -/

theorem advances_subscribe (orderly : Orderly id network) (name : Text)
    (listener : Listener) (replay : Bool) :
    Advances id network (.subscribe name listener replay)
      (network.subscribe name id listener replay).network := by
  have registered : Undisturbed id network
      (network.modifyCell id (·.register listener)) :=
    undisturbed_modifySignal (fun _ => rfl) fun _ => rfl
  have stillOrderly := orderly.of_undisturbed registered
  have finished : ∀ {told : Outcome α Unit},
      Undisturbed id network told.network →
      Undisturbed id network
        (told.andThen fun _ network =>
          { network with
            subscriptions :=
              network.subscriptions.set name ⟨id, listener, true⟩ }.done
            ()).network := by
    rintro ⟨result, next⟩ undisturbed
    cases result with
    | error failure =>
        exact undisturbed
    | ok =>
        exact undisturbed.trans ⟨rfl, rfl, rfl, rfl⟩
  refine advances_of_undisturbed orderly (finished ?_) (fun _ => rfl) (.inr rfl)
  split
  case h_1 value isValue =>
    have isSet : ((network.modifyCell id (·.register listener)).value? id
        ).isSome = true := by
      rw [registered.isSet, isValue]
      rfl
    have changes : Changes (fun _ => True)
        (network.modifyCell id (·.register listener))
        (deliver Network.set value
          (network.modifyCell id (·.register listener)) listener).network :=
      changes_deliver (changes_setWithin (isClosed_all _) depthLimit) (.refl _)
        fun _ _ => trivial
    exact registered.trans (changes.undisturbed stillOrderly.own fun _ =>
      ⟨isSet, stillOrderly.idle isSet⟩)
  · exact registered

omit [BEq α] in
theorem advances_unsubscribe (orderly : Orderly id network) (name : Text) :
    Advances id network (.unsubscribe name) (network.cancel name).network :=
  advances_of_undisturbed orderly (undisturbed_cancel network name)
    (fun _ => rfl) (.inr rfl)

theorem advances_perform (orderly : Orderly id network) {step : Step α}
    (fresh : ∀ name, step = .request name → network.state? name = none) :
    Advances id network step (perform id network step) := by
  cases step with
  | request name =>
      exact advances_request orderly (fresh name rfl)
  | turn name =>
      exact advances_turn orderly name
  | cancel name =>
      exact advances_cancel orderly name
  | set value =>
      exact advances_set orderly value
  | subscribe name listener replay =>
      exact advances_subscribe orderly name listener replay
  | unsubscribe name =>
      exact advances_unsubscribe orderly name

end Requests

end CurrencyPad
