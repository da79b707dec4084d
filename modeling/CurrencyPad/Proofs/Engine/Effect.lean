import CurrencyPad.Proofs.Engine.Run

/-!
# Effects of actions

What an action can make of an engine in any state.  A task that has its turn
ends at once or joins the conversions, and the entry changes in three ways: an
event has its turn, a currency is selected at its turn, or a conversion ends
with the rates that it received.
-/

namespace CurrencyPad

/-- The ways in which an entry can change where only some events have their
turn. -/
inductive Entry.Change (config : Config) (turns : Event → Prop)
    (entry : Entry) : Entry → Prop
  | nothing :
      Entry.Change config turns entry entry
  | applied {event : Event} (turn : turns event)
      (noChoice : ∀ code, event ≠ .currency code) :
      Entry.Change config turns entry (entry.apply config event)
  | selected (code : Text) :
      Entry.Change config turns entry (entry.select code none)
  | converted (rates : Snapshot) (source target : Text)
      (amount : Binary64.Finite) :
      Entry.Change config turns entry
        (entry.select target
          (Entry.convertedText? config rates source target amount))

theorem Entry.Change.mono {config : Config} {turns others : Event → Prop}
    {entry next : Entry} (weaker : ∀ event, turns event → others event)
    (change : Entry.Change config turns entry next) :
    Entry.Change config others entry next := by
  cases change with
  | nothing =>
      exact .nothing
  | applied turn noChoice =>
      exact .applied (weaker _ turn) noChoice
  | selected code =>
      exact .selected code
  | converted rates source target amount =>
      exact .converted rates source target amount

/-- The event that an action hands in, if it hands in one. -/
def Action.event? : Action → Option Event
  | .submit event => some event
  | .handle event => some event
  | _ => none

namespace Engine

/-- An engine that can still be started. -/
def Fresh (engine : Engine) : Prop :=
  engine.disposed = false ∧ engine.started = false

/-- The start connects an engine that is fresh and does nothing to another
one, apart from its display and log. -/
theorem frame_start (engine : Engine) :
    engine.start.1.frame = engine.frame ∨
      engine.Fresh ∧ engine.start.1.frame = engine.connected.frame := by
  by_cases disposed : engine.disposed = true
  · left
    simp [start, disposed]
  · by_cases started : engine.started = true
    · left
      rw [start_of_started (by simpa using disposed) started]
      rfl
    · right
      have fresh : engine.Fresh :=
        ⟨by simpa using disposed, by simpa using started⟩
      exact ⟨fresh, frame_start_of_fresh fresh.1 fresh.2⟩

/-- A turn adds at most conversions of its own task, which have not looked for
rates yet. -/
theorem frame_beginEvent (engine : Engine) (task : TaskId) (event : Event) :
    ∃ begun finished,
      (∀ conversion ∈ begun,
        conversion.task = task ∧ conversion.read = .requested) ∧
      begun.length ≤ 1 ∧
      (engine.beginEvent task event).frame =
        { engine.frame with
          conversions := engine.frame.conversions ++ begun
          finished := finished } := by
  have ends : ∀ step : Step, step.1.frame = engine.frame →
      ∃ begun finished,
        (∀ conversion ∈ begun,
          conversion.task = task ∧ conversion.read = .requested) ∧
        begun.length ≤ 1 ∧
        (finishWith task step).frame =
          { engine.frame with
            conversions := engine.frame.conversions ++ begun
            finished := finished } := by
    intro step sameFrame
    refine ⟨[], (finishWith task step).finished, List.forall_mem_nil _,
      Nat.zero_le 1, ?_⟩
    rw [List.append_nil, ← sameFrame]
    rfl
  cases event with
  | currency code =>
      have turn :
          engine.beginEvent task (.currency code) =
            engine.beginCurrency task code := rfl
      rw [turn]
      cases entered : engine.entry.amountFor? engine.config code with
      | none =>
          rw [beginCurrency_of_none entered]
          exact ends _ (frame_applyCurrency engine code none)
      | some amount =>
          rw [beginCurrency_of_some entered]
          refine
            ⟨[⟨task, engine.currency, code, amount, .requested⟩],
              engine.finished, ?_, Nat.le_refl 1, rfl⟩
          intro conversion member
          rw [List.mem_singleton.mp member]
          exact ⟨rfl, rfl⟩
  | _ =>
      exact ends _ (frame_dispatch engine _)

/-- A task that has its turn may start the engine first. -/
theorem frame_begin (engine : Engine) (submission : Submission) :
    ∃ ready begun finished,
      (ready = engine ∨ engine.Fresh ∧ ready = engine.connected) ∧
      (∀ conversion ∈ begun,
        conversion.task = submission.task ∧
          conversion.read = .requested) ∧
      begun.length ≤ 1 ∧
      (engine.begin submission).frame =
        { ready.frame with
          conversions := ready.frame.conversions ++ begun
          finished := finished } := by
  have unbegun : ∀ ready : Engine, ∀ finished,
      ({ ready.frame with finished := finished } : Frame) =
        { ready.frame with
          conversions := ready.frame.conversions ++ []
          finished := finished } := by
    intro ready finished
    rw [List.append_nil]
  by_cases cancelled : submission.cancelled = true
  · rw [begin_of_cancelled cancelled]
    exact ⟨engine, [], _, .inl rfl, List.forall_mem_nil _, Nat.zero_le 1,
      unbegun engine _⟩
  · obtain ⟨ready, isReady, sameFrame⟩ :
        ∃ ready, (ready = engine ∨
            engine.Fresh ∧ ready = engine.connected) ∧
          engine.start.1.frame = ready.frame := by
      rcases frame_start engine with same | ⟨fresh, connects⟩
      · exact ⟨engine, .inl rfl, same⟩
      · exact ⟨engine.connected, .inr ⟨fresh, rfl⟩, connects⟩
    unfold begin
    rw [if_neg cancelled]
    generalize engine.start = step at sameFrame ⊢
    obtain ⟨started, failure⟩ := step
    cases failure with
    | some failure =>
        refine ⟨ready, [], (submission.task, .failed failure) ::
          ready.frame.finished, isReady, List.forall_mem_nil _,
          Nat.zero_le 1, ?_⟩
        rw [← unbegun, ← sameFrame]
        rfl
    | none =>
        obtain ⟨begun, finished, own, atMostOne, moved⟩ :=
          frame_beginEvent started submission.task submission.event
        refine ⟨ready, begun, finished, isReady, own, atMostOne, ?_⟩
        rw [← sameFrame]
        exact moved

/-- The end of a conversion leaves the engine without it, unless it waits
still. -/
theorem frame_complete (engine : Engine)
    (conversion : PendingConversion) :
    (engine.complete conversion = engine ∧
        (conversion.read = .requested ∨ conversion.read = .waiting)) ∨
      ∃ finished,
        (engine.complete conversion).frame =
          { (engine.dropConversion conversion.task).frame with
            finished := finished } := by
  unfold complete
  split
  case h_1 requested =>
    exact .inl ⟨rfl, .inl requested⟩
  case h_2 waiting =>
    exact .inl ⟨rfl, .inr waiting⟩
  case h_3 rates _ =>
    right
    have sameFrame :=
      frame_convert (engine.dropConversion conversion.task) conversion rates
    rw [← sameFrame]
    exact ⟨_, rfl⟩
  all_goals
    exact .inr ⟨_, rfl⟩

/-- New rates change the signal and the conversions that wait for it, and
known rates change nothing. -/
theorem frame_setRates (engine : Engine) (rates : Snapshot) :
    (engine.rates.change? (some rates) = none ∧
        (engine.setRates (some rates)).1.frame = engine.frame) ∨
      (engine.rates.change? (some rates) =
          some (engine.receiving rates).rates ∧
        (engine.setRates (some rates)).1.frame =
          (engine.receiving rates).frame) := by
  cases changed : engine.rates.change? (some rates) with
  | none =>
      rw [setRates_of_unchanged changed]
      exact .inl ⟨rfl, rfl⟩
  | some cell =>
      have cellValue := Cell.eq_of_change?_eq_some changed
      rw [setRates_of_changed changed]
      exact .inr ⟨congrArg some cellValue,
        ((telling_rates rates).entry_frame_tellAll _ _).2⟩

theorem frame_setBase (engine : Engine) (base : Text) :
    (engine.base.change? (some base) = none ∧
        (engine.setBase (some base)).1.frame = engine.frame) ∨
      (engine.base.change? (some base) = some (engine.rebased base).base ∧
        (engine.setBase (some base)).1.frame =
          (engine.rebased base).frame) := by
  cases changed : engine.base.change? (some base) with
  | none =>
      rw [setBase_of_unchanged changed]
      exact .inl ⟨rfl, rfl⟩
  | some cell =>
      have cellValue := Cell.eq_of_change?_eq_some changed
      rw [setBase_of_changed changed]
      exact .inr ⟨congrArg some cellValue,
        ((telling_base base).entry_frame_tellAll _ _).2⟩

theorem change_beginEvent (engine : Engine) (task : TaskId)
    (event : Event) :
    Entry.Change engine.config (· = event) engine.entry
      (engine.beginEvent task event).entry := by
  cases event with
  | currency code =>
      have turn :
          engine.beginEvent task (.currency code) =
            engine.beginCurrency task code := rfl
      rw [turn]
      cases entered : engine.entry.amountFor? engine.config code with
      | none =>
          rw [beginCurrency_of_none entered, entry_finishWith,
            entry_applyCurrency]
          exact .selected code
      | some amount =>
          rw [beginCurrency_of_some entered]
          exact .nothing
  | _ =>
      have turn := entry_dispatch engine
      exact turn _ ▸ .applied rfl nofun

theorem change_begin (engine : Engine) (submission : Submission) :
    Entry.Change engine.config (· = submission.event) engine.entry
      (engine.begin submission).entry := by
  have sameEntry := entry_start engine
  have sameConfig : engine.start.1.config = engine.config :=
    config_perform engine 0 .start
  unfold begin
  split
  · exact .nothing
  · generalize engine.start = step at sameEntry sameConfig ⊢
    obtain ⟨ready, failure⟩ := step
    cases failure with
    | some failure =>
        have unmoved :
            (ready.finish submission.task (.failed failure)).entry =
              engine.entry :=
          sameEntry
        rw [unmoved]
        exact .nothing
    | none =>
        rw [← sameEntry, ← sameConfig]
        exact change_beginEvent ready submission.task submission.event

theorem change_complete (engine : Engine)
    (conversion : PendingConversion) (turns : Event → Prop) :
    Entry.Change engine.config turns engine.entry
      (engine.complete conversion).entry := by
  unfold complete
  split
  case h_3 rates _ =>
    rw [entry_finishWith, entry_convert]
    exact .converted rates conversion.source conversion.target
      conversion.amount
  all_goals
    exact .nothing

theorem entry_look (engine : Engine) (conversion : PendingConversion) :
    (engine.look conversion).entry = engine.entry := by
  unfold look
  split <;> rfl

theorem entry_setRates (engine : Engine) (rates : Snapshot) :
    (engine.setRates (some rates)).1.entry = engine.entry := by
  cases changed : engine.rates.change? (some rates) with
  | none =>
      rw [setRates_of_unchanged changed]
      rfl
  | some cell =>
      rw [setRates_of_changed changed]
      exact ((telling_rates rates).entry_frame_tellAll _ _).1

theorem entry_setBase (engine : Engine) (base : Text) :
    (engine.setBase (some base)).1.entry = engine.entry := by
  cases changed : engine.base.change? (some base) with
  | none =>
      rw [setBase_of_unchanged changed]
      rfl
  | some cell =>
      rw [setBase_of_changed changed]
      exact ((telling_base base).entry_frame_tellAll _ _).1

/-- Every action changes the entry in one of the ways in which entries change.
Only an event that is handled at once or waits can have its turn. -/
theorem change_perform
    (engine : Engine) (number : TaskId) (action : Action) :
    Entry.Change engine.config
      (fun event =>
        action.event? = some event ∨
          ∃ submission ∈ engine.submissions, submission.event = event)
      engine.entry (engine.perform number action).entry := by
  have unchanged : ∀ {next : Engine}, next.entry = engine.entry →
      Entry.Change engine.config
        (fun event =>
          action.event? = some event ∨
            ∃ submission ∈ engine.submissions, submission.event = event)
        engine.entry next.entry := by
    intro next sameEntry
    rw [sameEntry]
    exact .nothing
  cases action with
  | start =>
      exact unchanged (entry_start engine)
  | dispose =>
      refine unchanged ?_
      change engine.dispose.entry = engine.entry
      unfold dispose
      split <;> rfl
  | handle event =>
      refine (change_begin engine ⟨number, event, false⟩).mono ?_
      intro other same
      exact .inl (congrArg some same.symm)
  | beginNext =>
      rcases perform_beginNext_cases engine number with
        same | ⟨submission, rest, waiting, begins⟩
      · exact unchanged (congrArg entry same)
      · rw [begins]
        refine
          (change_begin ({ engine with submissions := rest } : Engine)
            submission).mono ?_
        intro other same
        refine .inr ⟨submission, ?_, same.symm⟩
        rw [waiting]
        exact List.mem_cons_self
  | look task =>
      rcases perform_look_cases engine number task with
        ⟨_, same⟩ | ⟨conversion, _, _, looks⟩
      · exact unchanged (congrArg entry same)
      · rw [looks]
        exact unchanged (entry_look engine conversion)
  | complete task =>
      rcases perform_complete_cases engine number task with
        ⟨_, same⟩ | ⟨conversion, _, _, ends⟩
      · exact unchanged (congrArg entry same)
      · rw [ends]
        exact change_complete engine conversion _
  | setRates rates =>
      exact unchanged (entry_setRates engine rates)
  | setBase base =>
      exact unchanged (entry_setBase engine base)
  | _ =>
      exact unchanged rfl

theorem submissions_begin (engine : Engine) (submission : Submission) :
    (engine.begin submission).submissions = engine.submissions :=
  (submissions_conversions_begin engine submission).1

theorem submissions_look
    (engine : Engine) (task number : TaskId) :
    (engine.perform number (.look task)).submissions =
      engine.submissions := by
  rcases perform_look_cases engine number task with
    ⟨_, same⟩ | ⟨conversion, _, _, looks⟩
  · rw [same]
  · rw [looks]
    unfold look
    split <;> rfl

theorem submissions_complete
    (engine : Engine) (task number : TaskId) :
    (engine.perform number (.complete task)).submissions =
      engine.submissions := by
  rcases perform_complete_cases engine number task with
    ⟨_, same⟩ | ⟨conversion, _, _, ends⟩
  · rw [same]
  · rw [ends]
    rcases frame_complete engine conversion with
      ⟨same, _⟩ | ⟨finished, dropped⟩
    · rw [same]
    · exact congrArg Frame.submissions dropped

theorem submissions_setRates (engine : Engine) (rates : Snapshot) :
    (engine.setRates (some rates)).1.submissions = engine.submissions := by
  rcases frame_setRates engine rates with
    ⟨_, sameFrame⟩ | ⟨_, sameFrame⟩ <;>
    exact congrArg Frame.submissions sameFrame

theorem submissions_setBase (engine : Engine) (base : Text) :
    (engine.setBase (some base)).1.submissions = engine.submissions := by
  rcases frame_setBase engine base with
    ⟨_, sameFrame⟩ | ⟨_, sameFrame⟩ <;>
    exact congrArg Frame.submissions sameFrame

/-- An event that waits after an action waited before it or was handed in by it.
One that is cancelled stays so. -/
theorem submission_of_mem_perform {engine : Engine} {number : TaskId}
    {action : Action} {submission : Submission}
    (member : submission ∈ (engine.perform number action).submissions) :
    (submission.task = number ∧ action.event? = some submission.event) ∨
      ∃ earlier ∈ engine.submissions,
        earlier.task = submission.task ∧
          earlier.event = submission.event ∧
          (earlier.cancelled = true → submission.cancelled = true) := by
  have old : submission ∈ engine.submissions →
      (submission.task = number ∧ action.event? = some submission.event) ∨
        ∃ earlier ∈ engine.submissions,
          earlier.task = submission.task ∧
            earlier.event = submission.event ∧
            (earlier.cancelled = true → submission.cancelled = true) :=
    fun earlier => .inr ⟨submission, earlier, rfl, rfl, id⟩
  cases action with
  | start =>
      refine old ?_
      rw [← submissions_start engine]
      exact member
  | dispose =>
      change submission ∈ engine.dispose.submissions at member
      unfold dispose at member
      split at member
      · exact old member
      · obtain ⟨earlier, waiting, rfl⟩ := List.mem_map.mp member
        exact .inr ⟨earlier, waiting, rfl, rfl, fun _ => rfl⟩
  | submit event =>
      rcases List.mem_append.mp member with earlier | new
      · exact old earlier
      · rw [List.mem_singleton.mp new]
        exact .inl ⟨rfl, rfl⟩
  | handle event =>
      refine old ?_
      rw [← submissions_begin engine ⟨number, event, false⟩]
      exact member
  | beginNext =>
      rcases perform_beginNext_cases engine number with
        same | ⟨first, rest, waiting, begins⟩
      · rw [same] at member
        exact old member
      · rw [begins, submissions_begin] at member
        refine old ?_
        rw [waiting]
        exact List.mem_cons_of_mem first member
  | cancel task =>
      obtain ⟨earlier, waiting, rfl⟩ := List.mem_map.mp member
      refine .inr ⟨earlier, waiting, ?_⟩
      split
      · exact ⟨rfl, rfl, fun _ => rfl⟩
      · exact ⟨rfl, rfl, id⟩
  | look task =>
      refine old ?_
      rw [← submissions_look engine task number]
      exact member
  | complete task =>
      refine old ?_
      rw [← submissions_complete engine task number]
      exact member
  | setRates rates =>
      refine old ?_
      rw [← submissions_setRates engine rates]
      exact member
  | setBase base =>
      refine old ?_
      rw [← submissions_setBase engine base]
      exact member
  | _ =>
      exact old member

/-- What holds of the blank entry and is kept by every way in which entries
change holds of the entry at every point of a run. -/
theorem entry_runFrom_induction {config : Config}
    {rates : Option (Option Snapshot)} {base : Option (Option Text)}
    {turns : Event → Prop} {motive : Entry → Prop}
    (blank : motive .blank)
    (kept : ∀ entry next, motive entry →
      Entry.Change config turns entry next → motive next)
    (actions : List Action)
    (handedIn : ∀ action ∈ actions, ∀ event,
      action.event? = some event → turns event) :
    motive ((new config rates base).runFrom 0 actions).entry := by
  -- An event that waits has its turn later in the run, so what waits belongs
  -- to the invariant.
  suffices general :
      ∀ (engine : Engine) (number : TaskId), engine.config = config →
        motive engine.entry →
        (∀ submission ∈ engine.submissions, turns submission.event) →
          motive (engine.runFrom number actions).entry from
    general _ 0 rfl blank nofun
  induction actions with
  | nil =>
      intro engine number _ holdsHere _
      exact holdsHere
  | cons action rest inductionHypothesis =>
      intro engine number configured holdsHere waiting
      have first := handedIn action List.mem_cons_self
      refine inductionHypothesis
        (fun other member =>
          handedIn other (List.mem_cons_of_mem action member))
        _ (number + 1) ((config_perform engine number action).trans configured)
        ?_ ?_
      · refine kept engine.entry _ holdsHere ?_
        rw [← configured]
        refine (change_perform engine number action).mono ?_
        rintro event (turn | ⟨submission, member, rfl⟩)
        · exact first event turn
        · exact waiting submission member
      · intro submission member
        rcases submission_of_mem_perform member with
          ⟨_, new⟩ | ⟨earlier, waited, _, sameEvent, _⟩
        · exact first submission.event new
        · rw [← sameEvent]
          exact waiting earlier waited

end Engine

end CurrencyPad
