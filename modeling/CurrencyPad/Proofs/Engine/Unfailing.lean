import CurrencyPad.Proofs.Engine.Consistency
import CurrencyPad.Proofs.Engine.History
import CurrencyPad.Proofs.Pad.Guarded

/-!
# Runs in which nothing fails

As long as nobody refuses the display and the engine is not disposed, no task
fails and no call from outside does.  What the engine computes on the way does
not break off either: the guarded computations give the entry and the display
that it has.
-/

namespace CurrencyPad.Engine

/-- Why an action fails that is a call from outside.  The tasks of an engine end
with their failures instead. -/
def failure? (engine : Engine) : Action → Option EngineFailure
  | .start => engine.start.2
  | .setRates rates => (engine.setRates (some rates)).2
  | .setBase base => (engine.setBase (some base)).2
  | _ => none

/-- No task has failed. -/
def Unfailing (engine : Engine) : Prop :=
  ∀ task failure, (task, TaskOutcome.failed failure) ∉ engine.finished

theorem Unfailing.of_eq {before after : Engine}
    (unfailing : before.Unfailing)
    (same : after.finished = before.finished) : after.Unfailing := by
  intro task failure
  rw [same]
  exact unfailing task failure

theorem Unfailing.of_cons {before after : Engine}
    (unfailing : before.Unfailing) {task : TaskId} {outcome : TaskOutcome}
    (ends : after.finished = (task, outcome) :: before.finished)
    (good : outcome = .done ∨ outcome = .cancelled) :
    after.Unfailing := by
  intro other failure member
  rw [ends, List.mem_cons] at member
  rcases member with same | earlier
  · rcases good with rfl | rfl <;> cases same
  · exact unfailing other failure earlier

/-- A task that ends with a step that succeeds is done. -/
theorem finished_finishWith {engine : Engine} (task : TaskId) {step : Step}
    (succeeded : step.2 = none) (sameFrame : step.1.frame = engine.frame) :
    (finishWith task step).finished = (task, .done) :: engine.finished := by
  have sameFinished : step.1.finished = engine.finished :=
    congrArg Frame.finished sameFrame
  rw [finishWith, finish, succeeded, sameFinished]
  rfl

/-- An event that has its turn is done, or its conversion begins. -/
theorem Showing.finished_beginEvent {engine : Engine}
    (showing : engine.Showing) (task : TaskId) (event : Event) :
    (engine.beginEvent task event).finished =
        (task, .done) :: engine.finished ∨
      (engine.beginEvent task event).finished = engine.finished ∧
        ∃ conversion ∈ (engine.beginEvent task event).conversions,
          conversion.task = task := by
  have dispatched :
      (finishWith task (engine.dispatch event)).finished =
        (task, .done) :: engine.finished :=
    finished_finishWith task
      (showing.current.follows_dispatch showing.accepting event).1
      (frame_dispatch engine event)
  cases event with
  | currency code =>
      have turn : engine.beginEvent task (.currency code) =
          engine.beginCurrency task code := rfl
      rw [turn]
      cases entered : engine.entry.amountFor? engine.config code with
      | none =>
          rw [beginCurrency_of_none entered]
          have applied := showing.current.follows_applyCurrency
            showing.accepting code none
          exact .inl (finished_finishWith task applied.1
            (frame_applyCurrency engine code none))
      | some amount =>
          rw [beginCurrency_of_some entered]
          exact .inr ⟨rfl, _, List.mem_append_right _ List.mem_cons_self, rfl⟩
  | _ =>
      exact .inl dispatched

/-- An engine that is alive starts well, and nothing has ended by it. -/
theorem exists_start {engine : Engine}
    (alive : engine.Resting ∨ engine.Showing) :
    ∃ ready : Engine, engine.start = (ready, none) ∧ ready.Showing ∧
      ready.finished = engine.finished := by
  rcases alive with resting | showing
  · obtain ⟨succeeded, shows⟩ := resting.start
    refine ⟨engine.start.1, Prod.ext rfl succeeded, shows, ?_⟩
    exact congrArg Frame.finished
      (frame_start_of_fresh resting.undisposed resting.fresh)
  · exact ⟨engine, start_of_started showing.undisposed showing.started,
      showing, rfl⟩

/-- An event that is handed in for its turn at once is done, or its conversion
begins. -/
theorem finished_begin {engine : Engine}
    (alive : engine.Resting ∨ engine.Showing) {submission : Submission}
    (uncancelled : submission.cancelled = false) :
    (engine.begin submission).finished =
        (submission.task, .done) :: engine.finished ∨
      (engine.begin submission).finished = engine.finished ∧
        ∃ conversion ∈ (engine.begin submission).conversions,
          conversion.task = submission.task := by
  obtain ⟨ready, starts, showing, sameFinished⟩ := exists_start alive
  rw [begin_of_start_eq uncancelled starts, ← sameFinished]
  exact showing.finished_beginEvent submission.task submission.event

/-- An engine that is alive shows its sources once an event has had its turn. -/
theorem showing_begin {engine : Engine}
    (alive : engine.Resting ∨ engine.Showing) {submission : Submission}
    (uncancelled : submission.cancelled = false) :
    (engine.begin submission).Showing := by
  obtain ⟨ready, starts, showing, _⟩ := exists_start alive
  obtain ⟨sameConnections, follows⟩ :=
    showing.beginEvent submission.task submission.event
  rw [begin_of_start_eq uncancelled starts]
  exact showing.of_follows sameConnections follows

theorem Unfailing.begin {engine : Engine} (unfailing : engine.Unfailing)
    (alive : engine.Resting ∨ engine.Showing) (submission : Submission) :
    (engine.begin submission).Unfailing := by
  by_cases cancelled : submission.cancelled = true
  · rw [begin_of_cancelled cancelled]
    exact unfailing.of_cons rfl (.inr rfl)
  · rcases finished_begin alive (by simpa using cancelled) with
      done | ⟨same, _⟩
    · exact unfailing.of_cons done (.inl rfl)
    · exact unfailing.of_eq same

theorem Unfailing.complete {engine : Engine} (unfailing : engine.Unfailing)
    (showing : engine.Showing) (conversion : PendingConversion) :
    (engine.complete conversion).Unfailing := by
  unfold Engine.complete
  split
  · exact unfailing
  · exact unfailing
  case h_3 rates _ =>
    have dropped : (engine.dropConversion conversion.task).Current :=
      showing.current.of_view_eq rfl
    have converts :=
      dropped.follows_convert showing.accepting conversion rates
    have ends := finished_finishWith conversion.task converts.1
      (frame_convert _ conversion rates)
    exact unfailing.of_cons ends (.inl rfl)
  · exact unfailing.of_cons rfl (.inl rfl)
  · exact unfailing.of_cons rfl (.inl rfl)
  · exact unfailing.of_cons rfl (.inr rfl)

/-- A quiet action lets no task fail. -/
theorem Unfailing.perform {engine : Engine} (unfailing : engine.Unfailing)
    (alive : engine.Resting ∨ engine.Showing) (number : TaskId)
    {action : Action} (quiet : action.isQuiet = true) :
    (engine.perform number action).Unfailing := by
  cases action with
  | start =>
      obtain ⟨ready, starts, _, sameFinished⟩ := exists_start alive
      refine unfailing.of_eq ?_
      rw [Engine.perform, starts]
      exact sameFinished
  | dispose =>
      cases quiet
  | handle event =>
      exact unfailing.begin alive _
  | beginNext =>
      rcases perform_beginNext_cases engine number with
        same | ⟨submission, rest, _, begins⟩
      · rw [same]
        exact unfailing
      · rw [begins]
        -- An engine is alive whatever waits in its queue.
        have taken : ({ engine with submissions := rest } : Engine).Resting ∨
            ({ engine with submissions := rest } : Engine).Showing := by
          rcases alive with resting | showing
          · exact .inl ⟨resting.fresh, resting.undisposed,
              resting.accepting, resting.detached, resting.settled,
              resting.unpublished, resting.unconverting⟩
          · exact .inr (showing.of_view_eq rfl rfl)
        have still : ({ engine with submissions := rest } : Engine).Unfailing :=
          unfailing
        exact still.begin taken submission
  | look task =>
      rcases perform_look_cases engine number task with
        ⟨_, same⟩ | ⟨conversion, _, _, looks⟩
      · rw [same]
        exact unfailing
      · rw [looks]
        refine unfailing.of_eq ?_
        unfold Engine.look
        split <;> rfl
  | complete task =>
      rcases perform_complete_cases engine number task with
        ⟨_, same⟩ | ⟨conversion, member, _, completes⟩
      · rw [same]
        exact unfailing
      · rw [completes]
        rcases alive with resting | showing
        · rw [resting.unconverting] at member
          cases member
        · exact unfailing.complete showing conversion
  | setRates rates =>
      rcases frame_setRates engine rates with ⟨_, same⟩ | ⟨_, told⟩
      · exact unfailing.of_eq (congrArg Frame.finished same)
      · exact unfailing.of_eq (congrArg Frame.finished told)
  | setBase base =>
      rcases frame_setBase engine base with ⟨_, same⟩ | ⟨_, told⟩
      · exact unfailing.of_eq (congrArg Frame.finished same)
      · exact unfailing.of_eq (congrArg Frame.finished told)
  | refuse =>
      cases quiet
  | _ =>
      exact unfailing

theorem failure?_eq_none {engine : Engine}
    (alive : engine.Resting ∨ engine.Showing) (action : Action) :
    engine.failure? action = none := by
  cases action with
  | start =>
      obtain ⟨ready, starts, _⟩ := exists_start alive
      rw [failure?, starts]
  | setRates rates =>
      rcases alive with resting | showing
      · exact (resting.setRates rates).1
      · exact (showing.current.follows_setRates showing.accepting
          showing.hearsRates rates).1
  | setBase base =>
      rcases alive with resting | showing
      · exact (resting.setBase base).1
      · exact (showing.current.follows_setBase showing.accepting
          showing.hearsBase base).1
  | _ =>
      rfl

theorem Unfailing.runFrom (actions : List Action) {engine : Engine}
    (unfailing : engine.Unfailing)
    (alive : engine.Resting ∨ engine.Showing) (number : TaskId)
    (quiet : ∀ action ∈ actions, action.isQuiet = true) :
    (engine.runFrom number actions).Unfailing := by
  induction actions generalizing engine number with
  | nil =>
      exact unfailing
  | cons action rest inductionHypothesis =>
      rw [List.forall_mem_cons] at quiet
      have next : (engine.perform number action).Resting ∨
          (engine.perform number action).Showing :=
        runFrom_resting_or_showing [action] number alive
          (List.forall_mem_singleton.mpr quiet.1)
      exact inductionHypothesis (unfailing.perform alive number quiet.1) next
        (number + 1) quiet.2

/-- The entry to which some deeds lead, if all are guarded. -/
def guardedEntry (config : Config) (deeds : List Deed) : Except Break Entry :=
  deeds.foldlM (fun entry deed => deed.happening.effectGuarded config entry)
    .blank

/-- The guarded deeds of a run lead to the entry of the engine. -/
theorem guardedEntry_history (config : Config)
    (rates : Option (Option Snapshot)) (base : Option (Option Text))
    (actions : List Action) :
    guardedEntry config ((new config rates base).history 0 actions) =
      .ok ((new config rates base).runFrom 0 actions).entry := by
  refine history_induction (motive := fun deeds entry =>
    guardedEntry config deeds = .ok entry) rfl ?_ rates base actions
  intro deeds entry happening holds
  unfold guardedEntry at holds ⊢
  rw [List.foldlM_append, holds, Break.ok_bind, List.foldlM_cons,
    Happening.effectGuarded_eq]
  rfl

/-- In a run in which the engine is not disposed and nobody refuses the display,
no task fails, and nothing that is computed on the way breaks off. The next
event, whatever it is, is done or waits for rates, and what is computed for it
does not break off either; nor does a display of any other sources. -/
theorem quiet_runs_never_fail
    (config : Config) (rates : Option Snapshot) (base : Option Text)
    (actions : List Action)
    (quiet : ∀ action ∈ actions, action.isQuiet = true) :
    let first := new config (rates.map some) (base.map some)
    let engine := first.runFrom 0 actions
    engine.Unfailing ∧
      (∀ action, engine.failure? action = none) ∧
      guardedEntry config (first.history 0 actions) = .ok engine.entry ∧
      (∀ sources, Display.deriveGuarded config sources =
        .ok (Display.derive config sources)) ∧
      ∀ (number : TaskId) (event : Event),
        let next := engine.perform number (.handle event)
        (next.finished = (number, .done) :: engine.finished ∨
          next.finished = engine.finished ∧
            ∃ conversion ∈ next.conversions, conversion.task = number) ∧
        (engine.deed number (.handle event)).effectGuarded config
            engine.entry = .ok next.entry ∧
        ∃ display, next.published = some display ∧
          Display.deriveGuarded config next.sources = .ok display := by
  intro first engine
  have resting : first.Resting := new_resting config _ _
  have configured : engine.config = config := config_runFrom actions first 0
  have alive : engine.Resting ∨ engine.Showing :=
    runFrom_resting_or_showing actions 0 (.inl resting) quiet
  have unfailing : first.Unfailing :=
    fun _ _ member => absurd member List.not_mem_nil
  refine ⟨unfailing.runFrom actions (.inl resting) 0 quiet,
    failure?_eq_none alive, guardedEntry_history config _ _ actions,
    Display.deriveGuarded_eq config, ?_⟩
  intro number event next
  refine ⟨finished_begin alive rfl, ?_, ?_⟩
  · rw [Happening.effectGuarded_eq, ← configured, ← entry_perform]
  · have nextConfigured : next.config = config :=
      (config_perform engine number _).trans configured
    have showing : next.Showing :=
      @showing_begin engine alive ⟨number, event, false⟩ rfl
    refine ⟨_, showing.current.shown, ?_⟩
    rw [dueDisplay, Display.deriveGuarded_eq]
    exact congrArg
      (fun config => Except.ok (Display.derive config next.sources))
      nextConfigured.symm

/-- Rates of which none but the largest can be used, and these overflow by way of
the pivot. -/
def wildRates : Snapshot :=
  .ofRows (some "EUR".toList)
    [ ("USD".toList,
        [("EUR".toList, 1e308), ("JPY".toList, 0), ("GBP".toList, -1)]),
      ("EUR".toList, [("JPY".toList, 1e308), ("GBP".toList, 0 / 0)]),
      ("GBP".toList, [("EUR".toList, 1 / 0)]) ]

/-- The actions of a run in which the largest of amounts is to be converted. -/
def wildActions : List Action :=
  [ .handle (.initial (some ⟨⟨1e308, by decide +kernel⟩, "USD".toList⟩)),
    .handle (.currency "JPY".toList), .look 1, .setRates wildRates,
    .complete 1, .setBase "gbp".toList, .handle .equals ]

theorem quiet_runs_never_fail_wild :
    let first := new Config.default none none
    let engine := first.runFrom 0 wildActions
    (∀ action ∈ wildActions, action.isQuiet = true) ∧
      engine.Unfailing ∧
      guardedEntry Config.default (first.history 0 wildActions) =
        .ok engine.entry ∧
      ∃ display,
        (engine.perform 7 (.handle .backspace)).published = some display ∧
        Display.deriveGuarded Config.default
          (engine.perform 7 (.handle .backspace)).sources = .ok display := by
  intro first engine
  have quiet : ∀ action ∈ wildActions, action.isQuiet = true := by
    simp [wildActions, Action.isQuiet]
  obtain ⟨unfailing, _, guarded, _, next⟩ :=
    quiet_runs_never_fail Config.default none none wildActions quiet
  exact ⟨quiet, unfailing, guarded, (next 7 .backspace).2.2⟩

end CurrencyPad.Engine
