import CurrencyPad.Proofs.Signal.Requests

/-!
# Runs of requests

Requests for the value of a signal are made, have their turns and are cancelled
in any order, while values are set and listeners come and go. A request that
found no value gives the first one that is set, in its next turn after that.
-/

namespace CurrencyPad.Requests

open Network

variable {α : Type} [BEq α] {id : SignalId} {network : Network α} {name : Text}

def run (id : SignalId) (network : Network α) (steps : List (Step α)) :
    Network α :=
  steps.foldl (perform id) network

/-- The answer that is given in a step, with the name of the request. -/
def answer? (network : Network α) : Step α → Option (Text × Option α)
  | .turn name => (network.turn name).1.map (name, ·)
  | _ => none

def answersTo (name : Text) (id : SignalId) :
    Network α → List (Step α) → List (Option α)
  | _, [] => []
  | network, step :: rest =>
    ((answer? network step).filter (·.1 = name)).toList.map (·.2) ++
      answersTo name id (perform id network step) rest

omit [BEq α] in
def names : List (Step α) → List Text
  | [] => []
  | .request name :: rest => name :: names rest
  | _ :: rest => names rest

/-- Nobody asked for the value of the signal yet. -/
structure IsFresh (id : SignalId) (network : Network α) : Prop where
  exists_signal : (network.signal? id).isSome = true
  nobody : network.waiters id = []
  reads : network.reads = []

/-- The requests so far are orderly, and those of the steps are new and differ. -/
structure Admits (id : SignalId) (network : Network α) (steps : List (Step α)) :
    Prop where
  orderly : Orderly id network
  distinct : (names steps).Nodup
  unknown : ∀ name ∈ names steps, network.state? name = none

omit [BEq α] in
theorem mem_names {steps : List (Step α)} :
    name ∈ names steps ↔ .request name ∈ steps := by
  induction steps with
  | nil =>
      simp [names]
  | cons step rest inductionHypothesis =>
      cases step <;> simp [names, inductionHypothesis]

omit [BEq α] in
theorem names_append (before after : List (Step α)) :
    names (before ++ after) = names before ++ names after := by
  induction before with
  | nil =>
      rfl
  | cons step rest inductionHypothesis =>
      cases step <;> simp [names, inductionHypothesis]

omit [BEq α] in
theorem IsFresh.admits (isFresh : IsFresh id network) {steps : List (Step α)}
    (distinct : (names steps).Nodup) : Admits id network steps := by
  have unknown : ∀ name, network.state? name = none := by
    intro name
    rw [state?, isFresh.reads]
    rfl
  refine ⟨⟨isFresh.exists_signal, ?_, fun _ => isFresh.nobody,
    fun name isWaiting => ?_, fun name member => ?_, ?_⟩, distinct,
    fun name _ => unknown name⟩
  · rw [isFresh.reads]
    exact List.forall_mem_nil _
  · rw [unknown] at isWaiting
    cases isWaiting
  · rw [isFresh.nobody] at member
    cases member
  · rw [isFresh.nobody]
    exact List.nodup_nil

theorem Admits.advances {step : Step α} {rest : List (Step α)}
    (admits : Admits id network (step :: rest)) :
    Advances id network step (perform id network step) := by
  refine advances_perform admits.orderly ?_
  rintro name rfl
  exact admits.unknown name List.mem_cons_self

theorem Admits.tail {step : Step α} {rest : List (Step α)}
    (admits : Admits id network (step :: rest)) :
    Admits id (perform id network step) rest := by
  have advances := admits.advances
  have sublist : (names rest).Sublist (names (step :: rest)) := by
    cases step <;> simp [names]
  refine ⟨advances.orderly, admits.distinct.sublist sublist,
    fun name member => ?_⟩
  have unknown := admits.unknown name (sublist.subset member)
  have other : step ≠ .request name := by
    rintro rfl
    exact (List.nodup_cons.mp admits.distinct).1 member
  rw [advances.state, unknown]
  cases step with
  | request another =>
      rw [Step.advance, if_neg]
      rintro rfl
      exact other rfl
  | _ =>
      simp [Step.advance]

theorem Admits.run {before after : List (Step α)}
    (admits : Admits id network (before ++ after)) :
    Admits id (run id network before) after := by
  induction before generalizing network with
  | nil =>
      exact admits
  | cons step rest inductionHypothesis =>
      exact inductionHypothesis admits.tail

omit [BEq α] in
theorem Admits.left {before after : List (Step α)}
    (admits : Admits id network (before ++ after)) :
    Admits id network before := by
  have sublist : (names before).Sublist (names (before ++ after)) := by
    rw [names_append]
    exact List.sublist_append_left _ _
  exact ⟨admits.orderly, admits.distinct.sublist sublist,
    fun name member => admits.unknown name (sublist.subset member)⟩

omit [BEq α] in
/-- A request that is known is not made again. -/
theorem Admits.request_not_mem {steps : List (Step α)}
    (admits : Admits id network steps)
    (known : (network.state? name).isSome = true) : .request name ∉ steps := by
  intro member
  rw [admits.unknown name (mem_names.mpr member)] at known
  cases known

theorem run_append (before after : List (Step α)) :
    run id network (before ++ after) =
      run id (run id network before) after :=
  List.foldl_append

theorem answersTo_append (before after : List (Step α)) :
    answersTo name id network (before ++ after) =
      answersTo name id network before ++
        answersTo name id (run id network before) after := by
  induction before generalizing network with
  | nil =>
      rfl
  | cons step rest inductionHypothesis =>
      rw [List.cons_append, answersTo, answersTo, inductionHypothesis,
        List.append_assoc]
      rfl

/-! ## One request -/

theorem answersTo_turn (orderly : Orderly id network) (rest : List (Step α)) :
    answersTo name id network (.turn name :: rest) =
      ((network.state? name).bind
        (ReadState.answer (network.value? id))).toList ++
          answersTo name id (perform id network (.turn name)) rest := by
  rw [answersTo, answer?, (turn_spec orderly name).1]
  cases (network.state? name).bind (ReadState.answer (network.value? id)) with
  | none =>
      rfl
  | some answer =>
      simp [Option.filter]

theorem answersTo_of_ne {step : Step α} (other : step ≠ .turn name)
    (rest : List (Step α)) :
    answersTo name id network (step :: rest) =
      answersTo name id (perform id network step) rest := by
  have none : (answer? network step).filter (·.1 = name) = none := by
    cases step with
    | turn another =>
        have differs : another ≠ name := by
          rintro rfl
          exact other rfl
        rw [answer?]
        cases (network.turn another).1 <;> simp [differs]
    | _ =>
        rfl
  rw [answersTo, none]
  rfl

section Advance

variable {value? : Option α} {step : Step α} {value : α}
  {state : ReadState α}

omit [BEq α]

theorem advance_over (notAgain : step ≠ .request name) :
    step.advance value? name (some .over) = some .over := by
  cases step <;>
    simp_all [Step.advance, ReadState.afterTurn, ReadState.afterCancel,
      ReadState.afterSet]

theorem advance_received (notAgain : step ≠ .request name)
    (notCancelled : step ≠ .cancel name) (noTurn : step ≠ .turn name) :
    step.advance value? name (some (.received value)) =
      some (.received value) := by
  cases step <;> simp_all [Step.advance, ReadState.afterSet]

theorem advance_waiting (notAgain : step ≠ .request name)
    (notCancelled : step ≠ .cancel name) (notSet : step.isSet = false) :
    step.advance value? name (some .waiting) = some .waiting := by
  cases step <;> simp_all [Step.advance, ReadState.afterTurn, Step.isSet]

theorem advance_unknown (notAgain : step ≠ .request name) :
    step.advance value? name none = none := by
  cases step <;> simp_all [Step.advance]

theorem advance_requested (notAgain : step ≠ .request name)
    (notCancelled : step ≠ .cancel name) (noTurn : step ≠ .turn name) :
    step.advance value? name (some .requested) = some .requested := by
  cases step <;> simp_all [Step.advance, ReadState.afterSet]

/-- If this holds of a request, then it does after every step. -/
structure Persists (holds : ReadState α → Prop) : Prop where
  turned : ∀ isSet state, holds state → holds (state.afterTurn isSet)
  cancelled : ∀ state, holds state → holds state.afterCancel
  received : ∀ value state, holds state → holds (state.afterSet value)

theorem Persists.advance {holds : ReadState α → Prop} (persists : Persists holds)
    (notAgain : step ≠ .request name) (now : holds state) :
    ∃ next, step.advance value? name (some state) = some next ∧
      holds next := by
  cases step with
  | request another =>
      refine ⟨state, ?_, now⟩
      rw [Step.advance, if_neg]
      rintro rfl
      exact notAgain rfl
  | turn another =>
      rw [Step.advance]
      split
      · exact ⟨_, rfl, persists.turned _ _ now⟩
      · exact ⟨_, rfl, now⟩
  | cancel another =>
      rw [Step.advance]
      split
      · exact ⟨_, rfl, persists.cancelled _ now⟩
      · exact ⟨_, rfl, now⟩
  | set value =>
      rw [Step.advance]
      split
      · exact ⟨_, rfl, now⟩
      · exact ⟨_, rfl, persists.received value _ now⟩
  | subscribe another listener replay =>
      exact ⟨_, rfl, now⟩
  | unsubscribe another =>
      exact ⟨_, rfl, now⟩

/-- The request does not wait any more. -/
def IsPast : ReadState α → Prop
  | .requested | .waiting => False
  | _ => True

theorem persists_isPast : Persists (IsPast : ReadState α → Prop) := by
  refine ⟨fun isSet state past => ?_, fun state past => ?_,
    fun value state past => ?_⟩ <;>
    cases state <;> trivial

/-- The request will not give a value any more. -/
def IsEnding : ReadState α → Prop
  | .cancelled | .over => True
  | _ => False

theorem persists_isEnding : Persists (IsEnding : ReadState α → Prop) := by
  refine ⟨fun isSet state ending => ?_, fun state ending => ?_,
    fun value state ending => ?_⟩ <;>
    cases state <;> trivial

end Advance

/-- A request gives no answer while no step brings it further. -/
theorem answersTo_of_stays {steps : List (Step α)}
    {state : Option (ReadState α)} (admits : Admits id network steps)
    (isState : network.state? name = state)
    (stays : ∀ step ∈ steps, ∀ value?,
      step.advance value? name state = state)
    (silent : .turn name ∈ steps →
      ∀ value?, state.bind (ReadState.answer value?) = none) :
    answersTo name id network steps = [] ∧
      (run id network steps).state? name = state := by
  induction steps generalizing network with
  | nil =>
      exact ⟨rfl, isState⟩
  | cons step rest inductionHypothesis =>
      rw [List.forall_mem_cons] at stays
      have next : (perform id network step).state? name = state := by
        rw [admits.advances.state, isState, stays.1]
      obtain ⟨noAnswer, final⟩ := inductionHypothesis admits.tail next stays.2
        fun member => silent (List.mem_cons_of_mem _ member)
      refine ⟨?_, final⟩
      by_cases isTurn : step = .turn name
      · subst isTurn
        rw [answersTo_turn admits.orderly, isState,
          silent List.mem_cons_self, noAnswer]
        rfl
      · rw [answersTo_of_ne isTurn, noAnswer]

/-- A request that is over gives no answer. -/
theorem answersTo_over {steps : List (Step α)} (admits : Admits id network steps)
    (isOver : network.state? name = some .over) :
    answersTo name id network steps = [] ∧
      (run id network steps).state? name = some .over := by
  refine answersTo_of_stays admits isOver (fun step member _ => advance_over ?_)
    fun _ _ => rfl
  rintro rfl
  exact admits.request_not_mem (isOver ▸ rfl) member

theorem Persists.run {holds : ReadState α → Prop} (persists : Persists holds)
    {steps : List (Step α)} (admits : Admits id network steps)
    {state : ReadState α} (isState : network.state? name = some state)
    (now : holds state) :
    ∃ next, (run id network steps).state? name = some next ∧ holds next := by
  induction steps generalizing network state with
  | nil =>
      exact ⟨state, isState, now⟩
  | cons step rest inductionHypothesis =>
      have notAgain : step ≠ .request name := by
        rintro rfl
        exact admits.request_not_mem (isState ▸ rfl) List.mem_cons_self
      obtain ⟨next, isNext, still⟩ := persists.advance notAgain now
      refine inductionHypothesis admits.tail ?_ still
      rw [admits.advances.state, isState, isNext]

/-- A request that was made is known from then on. -/
theorem exists_state {steps : List (Step α)} (admits : Admits id network steps)
    (requested : .request name ∈ steps) :
    ∃ state, (Requests.run id network steps).state? name = some state := by
  obtain ⟨before, after, rfl⟩ := List.append_of_mem requested
  have requests := admits.run
  have isRequested : (perform id (Requests.run id network before)
      (.request name)).state? name = some .requested := by
    rw [requests.advances.state, Step.advance, if_pos rfl]
  have always : Persists fun _ : ReadState α => True :=
    ⟨fun _ _ _ => trivial, fun _ _ => trivial, fun _ _ _ => trivial⟩
  obtain ⟨state, isState, -⟩ := always.run requests.tail isRequested trivial
  rw [run_append]
  exact ⟨state, isState⟩

/-- A request that has received a value gives it in its next turn. -/
theorem answersTo_received {steps : List (Step α)} {value : α}
    (admits : Admits id network steps)
    (isReceived : network.state? name = some (.received value))
    (notCancelled : .cancel name ∉ steps) :
    (.turn name ∈ steps → answersTo name id network steps = [some value]) ∧
      (.turn name ∉ steps → answersTo name id network steps = []) := by
  induction steps generalizing network with
  | nil =>
      exact ⟨nofun, fun _ => rfl⟩
  | cons step rest inductionHypothesis =>
      rw [List.mem_cons, not_or] at notCancelled
      have notAgain : step ≠ .request name := by
        rintro rfl
        exact admits.request_not_mem (isReceived ▸ rfl) List.mem_cons_self
      by_cases isTurn : step = .turn name
      · have isOver : (perform id network step).state? name = some .over := by
          rw [admits.advances.state, isReceived, isTurn, Step.advance,
            if_pos rfl]
          rfl
        obtain ⟨none, -⟩ := answersTo_over admits.tail isOver
        refine ⟨fun _ => ?_, fun noTurn => ?_⟩
        · rw [isTurn] at none
          rw [isTurn, answersTo_turn admits.orderly, isReceived, none]
          rfl
        · exact absurd (isTurn ▸ List.mem_cons_self) noTurn
      · have stays : (perform id network step).state? name =
            some (.received value) := by
          rw [admits.advances.state, isReceived,
            advance_received notAgain (Ne.symm notCancelled.1) isTurn]
        rw [answersTo_of_ne isTurn, List.mem_cons,
          or_iff_right (Ne.symm isTurn)]
        exact inductionHypothesis admits.tail stays notCancelled.2

/-- A request that waits gives no answer before a value is set. -/
theorem answersTo_waiting {steps : List (Step α)}
    (admits : Admits id network steps)
    (isWaiting : network.state? name = some .waiting)
    (noSet : ∀ step ∈ steps, step.isSet = false)
    (notCancelled : .cancel name ∉ steps) :
    answersTo name id network steps = [] ∧
      (run id network steps).state? name = some .waiting := by
  refine answersTo_of_stays admits isWaiting (fun step member _ =>
    advance_waiting ?_ ?_ (noSet step member)) fun _ _ => rfl
  · rintro rfl
    exact admits.request_not_mem (isWaiting ▸ rfl) member
  · rintro rfl
    exact notCancelled member

/-- A request that waits receives the first value that is set. -/
theorem answersTo_waiting_set {asleep rest : List (Step α)} {value : α}
    (admits : Admits id network (asleep ++ .set value :: rest))
    (isWaiting : network.state? name = some .waiting)
    (noSet : ∀ step ∈ asleep, step.isSet = false)
    (notCancelled : .cancel name ∉ asleep ++ .set value :: rest) :
    (.turn name ∈ rest →
        answersTo name id network (asleep ++ .set value :: rest) =
          [some value]) ∧
      (.turn name ∉ rest →
        answersTo name id network (asleep ++ .set value :: rest) = []) := by
  rw [List.mem_append, List.mem_cons, not_or, not_or] at notCancelled
  obtain ⟨noAnswer, stillWaiting⟩ := answersTo_waiting admits.left isWaiting
    noSet notCancelled.1
  have awake := admits.run
  have isUnset := awake.orderly.value?_of_waiting stillWaiting
  have received : (perform id (run id network asleep) (.set value)).state?
      name = some (.received value) := by
    rw [awake.advances.state, stillWaiting, isUnset]
    rfl
  have noTurn : Step.set value ≠ .turn name := by
    intro same
    cases same
  rw [answersTo_append, noAnswer, List.nil_append, answersTo_of_ne noTurn]
  exact answersTo_received awake.tail received notCancelled.2.2

/-! ## The whole run -/

/-- The request is made in these steps and left alone since. -/
def Starts (name : Text) (steps : List (Step α)) : Prop :=
  ∃ earlier idle, steps = earlier ++ .request name :: idle ∧
    .turn name ∉ idle ∧ .cancel name ∉ idle

/-- A waiting request receives a value in the step. -/
def Resolves (id : SignalId) (name : Text) (network : Network α)
    (step : Step α) : Prop :=
  network.state? name = some .waiting ∧
    ∃ value, (perform id network step).state? name = some (.received value)

/-- Requests are served as their run says. -/
structure IsServed (id : SignalId) (network : Network α)
    (steps : List (Step α)) : Prop where
  /-- With a value present, the first turn answers with it. -/
  atOnce : ∀ before after name value, steps = before ++ .turn name :: after →
    Starts name before → (run id network before).value? id = some value →
      ((run id network before).turn name).1 = some (some value) ∧
        answersTo name id network steps = [some value]
  /-- Without one, the answer is the first value that is set. -/
  first : ∀ before asleep rest name value,
    steps = before ++ .turn name :: asleep ++ .set value :: rest →
    Starts name before → (run id network before).value? id = none →
      (∀ step ∈ asleep, step.isSet = false) →
      .cancel name ∉ asleep → .cancel name ∉ rest →
        (.turn name ∈ rest →
          answersTo name id network steps = [some value]) ∧
        (.turn name ∉ rest → answersTo name id network steps = [])
  /-- No waiter is resolved a second time. -/
  once : ∀ before step middle again rest name,
    steps = before ++ step :: middle ++ again :: rest →
    Resolves id name (run id network before) step →
      ¬ Resolves id name (run id network (before ++ step :: middle)) again
  /-- Nobody waits while there is a value. -/
  pending : ((run id network steps).value? id).isSome = true →
    (run id network steps).waiters id = [] ∧
      ∀ name, (run id network steps).state? name ≠ some .waiting
  /-- A request that was cancelled is in no list once it had its turn. -/
  cleared : ∀ before after name, steps = before ++ .cancel name :: after →
    .request name ∈ before → .turn name ∈ after →
      name ∉ (run id network steps).waiters id

/-- A request is looked at in its first turn only. -/
theorem state?_of_starts {steps : List (Step α)}
    (admits : Admits id network steps) (starts : Starts name steps) :
    answersTo name id network steps = [] ∧
      (run id network steps).state? name = some .requested := by
  obtain ⟨earlier, idle, rfl, noTurn, notCancelled⟩ := starts
  have requests := admits.run
  have isUnknown : network.state? name = none := by
    refine admits.unknown name ?_
    rw [mem_names]
    exact List.mem_append_right _ List.mem_cons_self
  have notBefore : .request name ∉ earlier := by
    have distinct := admits.distinct
    rw [names_append, names, List.nodup_append] at distinct
    rw [← mem_names]
    exact fun member => distinct.2.2 _ member _ List.mem_cons_self rfl
  obtain ⟨before, -⟩ := answersTo_of_stays admits.left isUnknown
    (fun step member _ => advance_unknown fun same => notBefore (same ▸ member))
    fun _ _ => rfl
  have isRequested : (perform id (run id network earlier) (.request name)
      ).state? name = some .requested := by
    rw [requests.advances.state, Step.advance, if_pos rfl]
  have isOther : (.request name : Step α) ≠ .turn name := by
    intro same
    cases same
  obtain ⟨after, final⟩ := answersTo_of_stays requests.tail isRequested
    (fun step member _ => advance_requested
      (fun same => requests.tail.request_not_mem (isRequested ▸ rfl)
        (same ▸ member))
      (fun same => notCancelled (same ▸ member))
      fun same => noTurn (same ▸ member))
    fun member => absurd member noTurn
  refine ⟨?_, ?_⟩
  · rw [answersTo_append, before, answersTo_of_ne isOther, after]
    rfl
  · rw [run_append]
    exact final

/-- A turn that finds a value answers with it. -/
theorem answers_atOnce {before after : List (Step α)} {value : α}
    (admits : Admits id network (before ++ .turn name :: after))
    (starts : Starts name before)
    (isSet : (run id network before).value? id = some value) :
    ((run id network before).turn name).1 = some (some value) ∧
      answersTo name id network (before ++ .turn name :: after) =
        [some value] := by
  obtain ⟨noAnswer, isRequested⟩ := state?_of_starts admits.left starts
  have turns := admits.run
  have answers : ((run id network before).turn name).1 = some (some value) := by
    rw [(turn_spec turns.orderly name).1, isRequested, isSet]
    rfl
  have isOver : (perform id (run id network before) (.turn name)).state?
      name = some .over := by
    rw [turns.advances.state, isRequested, isSet, Step.advance, if_pos rfl]
    rfl
  refine ⟨answers, ?_⟩
  rw [answersTo_append, noAnswer, answersTo_turn turns.orderly, isRequested,
    isSet, (answersTo_over turns.tail isOver).1]
  rfl

/-- A turn that finds no value makes the request wait for the first. -/
theorem answers_first {before asleep rest : List (Step α)} {value : α}
    (admits : Admits id network
      (before ++ .turn name :: (asleep ++ .set value :: rest)))
    (starts : Starts name before)
    (isUnset : (run id network before).value? id = none)
    (noSet : ∀ step ∈ asleep, step.isSet = false)
    (notCancelled : .cancel name ∉ asleep ++ .set value :: rest) :
    (.turn name ∈ rest →
        answersTo name id network
          (before ++ .turn name :: (asleep ++ .set value :: rest)) =
            [some value]) ∧
      (.turn name ∉ rest →
        answersTo name id network
          (before ++ .turn name :: (asleep ++ .set value :: rest)) = []) := by
  obtain ⟨noAnswer, isRequested⟩ := state?_of_starts admits.left starts
  have turns := admits.run
  have isWaiting : (perform id (run id network before) (.turn name)).state?
      name = some .waiting := by
    rw [turns.advances.state, isRequested, isUnset, Step.advance, if_pos rfl]
    rfl
  rw [answersTo_append, noAnswer, answersTo_turn turns.orderly, isRequested,
    isUnset]
  exact answersTo_waiting_set turns.tail isWaiting noSet notCancelled

theorem not_resolves_again {before middle rest : List (Step α)}
    {step again : Step α}
    (admits : Admits id network (before ++ step :: middle ++ again :: rest))
    (resolves : Resolves id name (run id network before) step) :
    ¬ Resolves id name (run id network (before ++ step :: middle)) again := by
  rintro ⟨isWaiting, _⟩
  obtain ⟨_, value, received⟩ := resolves
  obtain ⟨state, isState, past⟩ :=
    persists_isPast.run admits.left.run.tail received trivial
  rw [run_append] at isWaiting
  cases isState.symm.trans isWaiting
  exact past

/-- A request that is cancelled is over after its next turn. -/
theorem state?_of_cancelled {before after : List (Step α)}
    (admits : Admits id network (before ++ .cancel name :: after))
    (requested : .request name ∈ before) (hasTurn : .turn name ∈ after) :
    (run id network (before ++ .cancel name :: after)).state? name =
      some .over := by
  obtain ⟨earlier, later, rfl⟩ := List.append_of_mem hasTurn
  obtain ⟨state, isState⟩ := exists_state admits.left requested
  have cancels := admits.run
  have isCancelled : (perform id (run id network before) (.cancel name)
      ).state? name = some state.afterCancel := by
    rw [cancels.advances.state, isState, Step.advance, if_pos rfl]
    rfl
  have ending : IsEnding state.afterCancel := by
    cases state <;> trivial
  obtain ⟨middle, isMiddle, stillEnding⟩ :=
    persists_isEnding.run cancels.tail.left isCancelled ending
  have turns := cancels.tail.run
  have isOver : (perform id (run id (perform id (run id network before)
      (.cancel name)) earlier) (.turn name)).state? name = some .over := by
    rw [turns.advances.state, isMiddle, Step.advance, if_pos rfl]
    cases middle <;> cases stillEnding <;> rfl
  rw [run_append]
  show (run id (perform id (run id network before) (.cancel name))
    (earlier ++ .turn name :: later)).state? name = some .over
  rw [run_append]
  exact (answersTo_over turns.tail isOver).2

/-- However requests, turns, cancellations, values and listeners follow each
other, the requests are served. -/
theorem isServed_of_run (isFresh : IsFresh id network) {steps : List (Step α)}
    (distinct : (names steps).Nodup) : IsServed id network steps := by
  have admits := isFresh.admits distinct
  have orderly : Orderly id (run id network steps) := by
    rw [← List.append_nil steps] at admits
    exact admits.run.orderly
  refine ⟨?_, ?_, ?_, fun isSet => ⟨orderly.idle isSet, fun name isWaiting => ?_⟩,
    ?_⟩
  · rintro before after name value rfl starts isSet
    exact answers_atOnce admits starts isSet
  · rintro before asleep rest name value isRun starts isUnset noSet
      notCancelled notCancelledLater
    rw [List.append_assoc, List.cons_append] at isRun
    subst isRun
    exact answers_first admits starts isUnset noSet
      (by simp [notCancelled, notCancelledLater])
  · rintro before step middle again rest name rfl
    exact not_resolves_again admits
  · rw [orderly.value?_of_waiting isWaiting] at isSet
    cases isSet
  · rintro before after name rfl requested hasTurn member
    have waits := orderly.waits name member
    rw [state?_of_cancelled admits requested hasTurn] at waits
    simp at waits

/-- Three requests; the second is cancelled and the third comes late. -/
def threeRequests : List (Step Nat) :=
  [.request ['a'], .request ['b'], .turn ['a'], .turn ['b'], .cancel ['b'],
    .subscribe ['l'] (.subscriber ['l'] .fail) false, .set 1, .set 2,
    .request ['c'], .turn ['c'], .turn ['a'], .turn ['b']]

def unsetSignal : Network Nat :=
  Network.empty.addCell ['s'] ['s'] none

theorem isServed_of_run_three :
    IsFresh 0 unsetSignal ∧ (names threeRequests).Nodup ∧
      IsServed 0 unsetSignal threeRequests ∧
      answersTo ['a'] 0 unsetSignal threeRequests = [some 1] ∧
      answersTo ['b'] 0 unsetSignal threeRequests = [none] ∧
      answersTo ['c'] 0 unsetSignal threeRequests = [some 2] := by
  have isFresh : IsFresh 0 unsetSignal := ⟨rfl, rfl, rfl⟩
  have distinct : (names threeRequests).Nodup := by decide
  exact ⟨isFresh, distinct, isServed_of_run isFresh distinct,
    by decide +kernel, by decide +kernel, by decide +kernel⟩

/-! ## Settling -/

theorem turns_eq_run (names : List Text) (network : Network α) :
    (network.turns names).2 = run id network (names.map .turn) ∧
      ∀ name answer, (name, answer) ∈ (network.turns names).1 ↔
        answer ∈ answersTo name id network (names.map .turn) := by
  induction names generalizing network with
  | nil =>
      exact ⟨rfl, fun _ _ => by simp [Network.turns, answersTo]⟩
  | cons first rest inductionHypothesis =>
      obtain ⟨last, answers⟩ := inductionHypothesis (network.turn first).2
      refine ⟨last, fun name answer => ?_⟩
      rw [List.map_cons, answersTo, List.mem_append]
      have isTurn : perform id network (.turn first) = (network.turn first).2 :=
        rfl
      have isCons : (network.turns (first :: rest)).1 =
          (network.turn first).1.toList.map (first, ·) ++
            ((network.turn first).2.turns rest).1 :=
        rfl
      rw [isTurn, ← answers, answer?, isCons, List.mem_append]
      refine or_congr_left ?_
      cases (network.turn first).1 with
      | none =>
          simp
      | some given =>
          by_cases same : first = name
          · simp [same, Option.filter]
          · simp [same, Option.filter, Ne.symm same]

/-- Settling is a run of turns, one for each request. -/
theorem settle_eq_run (distinct : network.reads.names.Nodup) :
    network.settle.2 = run id network (network.reads.names.map .turn) ∧
      ∀ name answer, (name, answer) ∈ network.settle.1 ↔
        answer ∈ answersTo name id network
          (network.reads.names.map .turn) := by
  rw [settle_eq_turns distinct]
  refine ⟨(turns_eq_run network.reads.names network).1, fun name answer => ?_⟩
  rw [← (turns_eq_run network.reads.names network).2]
  exact (List.mergeSort_perm _ _).mem_iff

end CurrencyPad.Requests
