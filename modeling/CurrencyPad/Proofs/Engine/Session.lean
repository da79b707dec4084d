import CurrencyPad.Pad.Engine.Settle
import CurrencyPad.Proofs.Engine.Consistency

/-!
# Sessions

A session runs every event to its end before the next, with rates and base
currency known from the beginning.  All that signals, turns and conversions do
then comes to one step of the table of entries for each event.
-/

namespace CurrencyPad.Engine

/-- A started engine that knows its rates and base currency and has nothing to
do. -/
structure Idle (config : Config) (rates : Snapshot) (base : Text)
    (engine : Engine) : Prop where
  showing : engine.Showing
  configured : engine.config = config
  ratesKnown : engine.rates.value = some (some rates)
  baseKnown : engine.base.value = some (some base)
  unsubmitted : engine.submissions = []
  unconverting : engine.conversions = []

variable {config : Config} {rates : Snapshot} {base : Text}
  {engine : Engine}

private theorem handle_eq
    (unsubmitted : engine.submissions = []) (task : TaskId) (event : Event) :
    engine.handle task event =
      let begun := engine.begin ⟨task, event, false⟩
      let looked := begun.conversions.foldl look begun
      looked.conversions.foldl complete looked := by
  have turn :
      beginMany (engine.submit task event).submissions.length
          (engine.submit task event) =
        engine.begin ⟨task, event, false⟩ := by
    cases engine
    simp only at unsubmitted
    subst unsubmitted
    rfl
  unfold handle settle
  rw [turn]

private theorem handle_eq_beginEvent (idle : Idle config rates base engine)
    (task : TaskId) (event : Event)
    (unconverting : (engine.beginEvent task event).conversions = []) :
    engine.handle task event = engine.beginEvent task event := by
  have begun :
      engine.begin ⟨task, event, false⟩ = engine.beginEvent task event :=
    begin_of_start_eq rfl
      (start_of_started idle.showing.undisposed idle.showing.started)
  rw [handle_eq idle.unsubmitted, begun]
  simp only [unconverting, List.foldl_nil]

private theorem handle_eq_dispatch (idle : Idle config rates base engine)
    (task : TaskId) {event : Event}
    (turn :
      engine.beginEvent task event =
        finishWith task (engine.dispatch event)) :
    engine.handle task event =
      finishWith task (engine.dispatch event) := by
  have sameConversions :
      (engine.dispatch event).1.conversions = engine.conversions :=
    congrArg Frame.conversions (frame_dispatch engine event)
  rw [handle_eq_beginEvent idle, turn]
  rw [turn]
  exact sameConversions.trans idle.unconverting

private theorem handle_eq_applyCurrency
    (idle : Idle config rates base engine) (task : TaskId) {code : Text}
    (nothing : engine.entry.amountFor? engine.config code = none) :
    engine.handle task (.currency code) =
      finishWith task (engine.applyCurrency code none) := by
  have turn :
      engine.beginEvent task (.currency code) =
        finishWith task (engine.applyCurrency code none) :=
    beginCurrency_of_none nothing task
  have sameConversions :
      (engine.applyCurrency code none).1.conversions =
        engine.conversions :=
    congrArg Frame.conversions (frame_applyCurrency engine code none)
  rw [handle_eq_beginEvent idle, turn]
  rw [turn]
  exact sameConversions.trans idle.unconverting

private def ready (engine : Engine) (task : TaskId) : Engine :=
  { engine with
    conversions := []
    rates := engine.rates.forget task }

/-- A choice of currency with an amount is looked after and ended at once, for
the rates are known. -/
private theorem handle_eq_convert
    (idle : Idle config rates base engine) (task : TaskId) {code : Text}
    {amount : Binary64.Finite}
    (entered :
      engine.entry.amountFor? engine.config code = some amount) :
    engine.handle task (.currency code) =
      finishWith task
        ((engine.ready task).convert
          ⟨task, engine.currency, code, amount, .received (some rates)⟩
          rates) := by
  have begun :
      engine.begin ⟨task, .currency code, false⟩ =
        { engine with
          conversions :=
            [⟨task, engine.currency, code, amount, .requested⟩] } := by
    rw [begin_of_start_eq rfl
      (start_of_started idle.showing.undisposed idle.showing.started)]
    change engine.beginCurrency task code = _
    rw [beginCurrency_of_some entered, idle.unconverting]
    rfl
  have looked :
      ({ engine with
          conversions :=
            [⟨task, engine.currency, code, amount, .requested⟩] }
            : Engine).look
          ⟨task, engine.currency, code, amount, .requested⟩ =
        { engine with
          conversions :=
            [⟨task, engine.currency, code, amount,
              .received (some rates)⟩] } := by
    simp [look, idle.ratesKnown, setConversion]
  rw [handle_eq idle.unsubmitted, begun]
  simp only [List.foldl_cons, List.foldl_nil, looked]
  simp only [complete, dropConversion, ready, bne_self_eq_false,
    List.filter_cons, List.filter_nil, Bool.false_eq_true, if_false]

/-- How an idle engine ends a task with a step that changes entry and display
only. -/
private theorem Idle.finishWith {ready : Engine} {step : Step}
    (idle : Idle config rates base ready)
    (sameFrame : step.1.frame = ready.frame)
    (succeeded : step.2 = none)
    (follows : ready.Follows step.1) (task : TaskId) :
    Idle config rates base (Engine.finishWith task step) ∧
      (Engine.finishWith task step).finished =
        (task, .done) :: ready.finished := by
  have showing : step.1.Showing :=
    idle.showing.of_follows (connections_congr sameFrame) follows
  have sameFinished : step.1.finished = ready.finished :=
    congrArg Frame.finished sameFrame
  refine ⟨⟨showing.of_view_eq rfl rfl, ?_, ?_, ?_, ?_, ?_⟩, ?_⟩
  · exact (congrArg Frame.config sameFrame).trans idle.configured
  · have sameRates : step.1.rates = ready.rates :=
      congrArg Frame.rates sameFrame
    exact (congrArg Cell.value sameRates).trans idle.ratesKnown
  · have sameBase : step.1.base = ready.base :=
      congrArg Frame.base sameFrame
    exact (congrArg Cell.value sameBase).trans idle.baseKnown
  · exact (congrArg Frame.submissions sameFrame).trans idle.unsubmitted
  · exact (congrArg Frame.conversions sameFrame).trans idle.unconverting
  · change (task, TaskOutcome.ofFailure step.2) :: step.1.finished = _
    rw [succeeded, sameFinished]
    rfl

/-- An idle engine makes of an event what the table says, ends its task well and
is idle again. -/
theorem Idle.handle (idle : Idle config rates base engine)
    (task : TaskId) (event : Event) :
    Idle config rates base (engine.handle task event) ∧
      (engine.handle task event).entry =
        engine.entry.step config rates event ∧
      (engine.handle task event).finished =
        (task, .done) :: engine.finished := by
  have current := idle.showing.current
  have accepting := idle.showing.accepting
  have dispatched :
      engine.beginEvent task event =
          Engine.finishWith task (engine.dispatch event) →
        Idle config rates base (engine.handle task event) ∧
          (engine.handle task event).entry =
            engine.entry.apply config event ∧
          (engine.handle task event).finished =
            (task, .done) :: engine.finished := by
    intro turn
    obtain ⟨succeeded, follows⟩ :=
      current.follows_dispatch accepting event
    obtain ⟨idleAgain, finished⟩ :=
      idle.finishWith (frame_dispatch engine event) succeeded follows task
    rw [handle_eq_dispatch idle task turn]
    refine ⟨idleAgain, ?_, finished⟩
    rw [entry_finishWith, entry_dispatch, idle.configured]
  cases event with
  | currency code =>
      cases entered : engine.entry.amountFor? engine.config code with
      | none =>
          obtain ⟨succeeded, follows⟩ :=
            current.follows_applyCurrency accepting code none
          obtain ⟨idleAgain, finished⟩ :=
            idle.finishWith (frame_applyCurrency engine code none)
              succeeded follows task
          rw [handle_eq_applyCurrency idle task entered]
          refine ⟨idleAgain, ?_, finished⟩
          rw [idle.configured] at entered
          rw [entry_finishWith, entry_applyCurrency, Entry.step, entered]
          rfl
      | some amount =>
          have readyShowing : (engine.ready task).Showing :=
            idle.showing.of_view_eq rfl rfl
          have readyIdle : Idle config rates base (engine.ready task) :=
            ⟨readyShowing, idle.configured, idle.ratesKnown,
              idle.baseKnown, idle.unsubmitted, rfl⟩
          obtain ⟨succeeded, follows⟩ :=
            readyShowing.current.follows_convert accepting
              ⟨task, engine.currency, code, amount, .received (some rates)⟩
              rates
          obtain ⟨idleAgain, finished⟩ :=
            readyIdle.finishWith (frame_convert _ _ _) succeeded follows
              task
          rw [handle_eq_convert idle task entered]
          refine ⟨idleAgain, ?_, finished⟩
          have readyConfigured : (engine.ready task).config = config :=
            idle.configured
          rw [idle.configured] at entered
          rw [entry_finishWith, entry_convert, readyConfigured, Entry.step,
            entered]
          rfl
  | _ =>
      exact dispatched rfl

theorem Idle.sources (idle : Idle config rates base engine) :
    engine.sources =
      ⟨engine.entry.expression, engine.entry.currency,
        engine.entry.showError, some rates, some base⟩ := by
  simp only [Engine.sources, idle.ratesKnown, idle.baseKnown]
  rfl

theorem Idle.handleAll (events : List Event)
    (idle : Idle config rates base engine) (task : TaskId) :
    Idle config rates base (engine.handleAll task events) ∧
      (engine.handleAll task events).entry =
        events.foldl (Entry.step config rates) engine.entry ∧
      (engine.handleAll task events).finished.map (·.2) =
        List.replicate events.length .done ++
          engine.finished.map (·.2) := by
  induction events generalizing engine task with
  | nil =>
      exact ⟨idle, rfl, rfl⟩
  | cons event rest inductionHypothesis =>
      obtain ⟨idleNext, entryNext, finishedNext⟩ := idle.handle task event
      obtain ⟨idleLast, entryLast, finishedLast⟩ :=
        inductionHypothesis idleNext (task + 1)
      refine ⟨idleLast, ?_, ?_⟩
      · rw [Engine.handleAll, entryLast, entryNext, List.foldl_cons]
      · rw [Engine.handleAll, finishedLast, finishedNext, List.length_cons,
          List.replicate_succ', List.append_assoc]
        rfl

/-- A new engine that knows its rates and base currency is idle once it is
started. -/
theorem start_new_idle (config : Config) (rates : Snapshot) (base : Text) :
    let started := (new config (some (some rates)) (some (some base))).start.1
    Idle config rates base started ∧ started.entry = .blank ∧
      started.finished = [] := by
  intro started
  have sameFrame :
      started.frame =
        (new config (some (some rates)) (some (some base))).connected.frame :=
    frame_start_of_fresh rfl rfl
  have sameRates := congrArg Frame.rates sameFrame
  have sameBase := congrArg Frame.base sameFrame
  refine ⟨⟨(new_resting _ _ _).start.2, ?_, ?_, ?_, ?_, ?_⟩, ?_, ?_⟩
  · exact congrArg Frame.config sameFrame
  · exact congrArg Cell.value sameRates
  · exact congrArg Cell.value sameBase
  · exact congrArg Frame.submissions sameFrame
  · exact congrArg Frame.conversions sameFrame
  · exact entry_start _
  · exact congrArg Frame.finished sameFrame

/-- After a session the engine shows the display of the entry that the table
makes of all its events.  Nothing is left to do, and every task ended well. -/
theorem replay_shows_entry
    (config : Config) (rates : Snapshot) (base : Text) (initial : Money)
    (events : List Event) :
    let inputs := .initial (some initial) :: events
    let entry := inputs.foldl (Entry.step config rates) .blank
    let engine := replay config rates base initial events
    engine.published =
        some (Display.derive config
          ⟨entry.expression, entry.currency, entry.showError, some rates,
            some (Text.upperCase base)⟩) ∧
      engine.entry = entry ∧
      engine.pending = 0 ∧
      engine.finished.map (·.2) =
        List.replicate inputs.length .done := by
  intro inputs entry engine
  obtain ⟨startIdle, startEntry, startFinished⟩ :=
    start_new_idle config rates (Text.upperCase base)
  obtain ⟨lastIdle, entryLast, finishedLast⟩ :=
    Idle.handleAll inputs startIdle 0
  have idle : Idle config rates (Text.upperCase base) engine := lastIdle
  have sameEntry : engine.entry = entry := by
    rw [startEntry] at entryLast
    exact entryLast
  refine ⟨?_, sameEntry, ?_, ?_⟩
  · rw [idle.showing.current.shown, dueDisplay, idle.configured,
      idle.sources, sameEntry]
  · rw [pending, idle.unsubmitted, idle.unconverting]
    rfl
  · rw [startFinished, List.map_nil, List.append_nil] at finishedLast
    exact finishedLast

end CurrencyPad.Engine
