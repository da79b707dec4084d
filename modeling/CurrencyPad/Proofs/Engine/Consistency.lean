import CurrencyPad.Proofs.Engine.Run
import CurrencyPad.Proofs.Engine.Upstream

/-!
# Consistency of the display

An engine rests until it is started; from then on it shows what belongs to its
sources after every action of a run.  Nothing that is half done is ever shown:
each action tells one display if it leads to another one, and none otherwise.
-/

namespace CurrencyPad

/-- Actions that neither stop the engine for good nor bring in a listener who
refuses displays. -/
def Action.isQuiet : Action → Bool
  | .dispose => false
  | .refuse => false
  | _ => true

namespace Engine

/-- An engine before its start. -/
structure Resting (engine : Engine) : Prop where
  fresh : engine.started = false
  undisposed : engine.disposed = false
  accepting : engine.refusing = 0
  detached : engine.attached = false
  settled : engine.stale = false
  unpublished : engine.published = none
  unconverting : engine.conversions = []

/-- An engine after its start, which shows what belongs to its sources. -/
structure Showing (engine : Engine) : Prop where
  started : engine.started = true
  undisposed : engine.disposed = false
  accepting : engine.refusing = 0
  hearsRates : .display ∈ engine.rates.listeners
  hearsBase : .display ∈ engine.base.listeners
  current : engine.Current

def connections (engine : Engine) : Bool × Bool × Nat ×
    List EngineListener × List EngineListener :=
  (engine.started, engine.disposed, engine.refusing,
    engine.rates.listeners, engine.base.listeners)

theorem connections_congr {left right : Engine}
    (sameFrame : left.frame = right.frame) :
    left.connections = right.connections := by
  have made : ∀ engine : Engine,
      engine.connections =
        (engine.frame.started, engine.frame.disposed,
          engine.frame.refusing, engine.frame.rates.listeners,
          engine.frame.base.listeners) :=
    fun _ => rfl
  rw [made, made, sameFrame]

theorem Showing.of_follows {before after : Engine}
    (showing : before.Showing)
    (sameConnections : after.connections = before.connections)
    (follows : before.Follows after) :
    after.Showing := by
  simp only [connections, Prod.mk.injEq] at sameConnections
  obtain ⟨sameStarted, sameDisposed, sameRefusing, sameRates, sameBase⟩ :=
    sameConnections
  refine ⟨?_, ?_, ?_, ?_, ?_, follows.current⟩
  · rw [sameStarted, showing.started]
  · rw [sameDisposed, showing.undisposed]
  · rw [sameRefusing, showing.accepting]
  · rw [sameRates]
    exact showing.hearsRates
  · rw [sameBase]
    exact showing.hearsBase

theorem Showing.of_view_eq {before after : Engine}
    (showing : before.Showing)
    (sameConnections : after.connections = before.connections)
    (sameView : after.view = before.view) :
    after.Showing :=
  showing.of_follows sameConnections
    (showing.current.follows_self.of_view_eq sameView)

theorem Showing.beginEvent {engine : Engine} (showing : engine.Showing)
    (task : TaskId) (event : Event) :
    (engine.beginEvent task event).connections = engine.connections ∧
      engine.Follows (engine.beginEvent task event) := by
  have dispatched :
      (finishWith task (engine.dispatch event)).connections =
          engine.connections ∧
        engine.Follows (finishWith task (engine.dispatch event)) := by
    obtain ⟨_, follows⟩ :=
      showing.current.follows_dispatch showing.accepting event
    have sameConnections :=
      connections_congr (frame_dispatch engine event)
    exact ⟨sameConnections, follows.of_view_eq rfl⟩
  cases event with
  | currency code =>
      change (engine.beginCurrency task code).connections = _ ∧
        engine.Follows (engine.beginCurrency task code)
      cases entered : engine.entry.amountFor? engine.config code with
      | none =>
          rw [beginCurrency_of_none entered]
          obtain ⟨_, follows⟩ :=
            showing.current.follows_applyCurrency showing.accepting
              code none
          have sameConnections :=
            connections_congr (frame_applyCurrency engine code none)
          exact ⟨sameConnections, follows.of_view_eq rfl⟩
      | some amount =>
          rw [beginCurrency_of_some entered]
          exact ⟨rfl, showing.current.follows_self.of_view_eq rfl⟩
  | _ =>
      exact dispatched

theorem Showing.begin {engine : Engine} (showing : engine.Showing)
    (submission : Submission) :
    (engine.begin submission).connections = engine.connections ∧
      engine.Follows (engine.begin submission) := by
  by_cases cancelled : submission.cancelled = true
  · rw [begin_of_cancelled cancelled]
    exact ⟨rfl, showing.current.follows_self.of_view_eq rfl⟩
  · rw [begin_of_start_eq (by simpa using cancelled)
      (start_of_started showing.undisposed showing.started)]
    exact showing.beginEvent submission.task submission.event

theorem Showing.beginNext {engine : Engine} (showing : engine.Showing) :
    engine.beginNext.connections = engine.connections ∧
      engine.Follows engine.beginNext := by
  unfold Engine.beginNext
  split
  · exact ⟨rfl, showing.current.follows_self⟩
  case h_2 submission rest _ =>
    have taken : ({ engine with submissions := rest } : Engine).Showing :=
      showing.of_view_eq rfl rfl
    obtain ⟨sameConnections, follows⟩ := taken.begin submission
    exact ⟨sameConnections, follows.from_view_eq rfl⟩

theorem Showing.look {engine : Engine} (showing : engine.Showing)
    (conversion : PendingConversion) :
    (engine.look conversion).connections = engine.connections ∧
      engine.Follows (engine.look conversion) := by
  unfold Engine.look
  split
  · exact ⟨rfl, showing.current.follows_self.of_view_eq rfl⟩
  · exact ⟨rfl, showing.current.follows_self.of_view_eq rfl⟩
  · exact ⟨rfl, showing.current.follows_self⟩

theorem Showing.complete {engine : Engine} (showing : engine.Showing)
    (conversion : PendingConversion) :
    (engine.complete conversion).connections = engine.connections ∧
      engine.Follows (engine.complete conversion) := by
  unfold Engine.complete
  split
  · exact ⟨rfl, showing.current.follows_self⟩
  · exact ⟨rfl, showing.current.follows_self⟩
  case h_3 rates _ =>
    have dropped : (engine.dropConversion conversion.task).Current :=
      showing.current.of_view_eq rfl
    obtain ⟨_, follows⟩ :=
      dropped.follows_convert showing.accepting conversion rates
    have ended :
        (engine.dropConversion conversion.task).Follows
          (finishWith conversion.task
            ((engine.dropConversion conversion.task).convert conversion
              rates)) :=
      follows.of_view_eq rfl
    have sameConnections :=
      connections_congr
        (frame_convert (engine.dropConversion conversion.task) conversion
          rates)
    exact ⟨sameConnections, ended.from_view_eq rfl⟩
  all_goals
    exact ⟨rfl, showing.current.follows_self.of_view_eq rfl⟩

private theorem connections_tellAll
    {tell : Engine → EngineListener → Step}
    {change : DisplaySources → DisplaySources}
    (telling : Telling tell change) (engine : Engine)
    (listeners : List EngineListener) :
    (tellAll tell engine listeners).1.connections = engine.connections :=
  connections_congr (telling.entry_frame_tellAll listeners engine).2

theorem Showing.setRates {engine : Engine} (showing : engine.Showing)
    (rates : Snapshot) :
    (engine.setRates (some rates)).1.connections = engine.connections ∧
      engine.Follows (engine.setRates (some rates)).1 := by
  refine ⟨?_, (showing.current.follows_setRates showing.accepting
    showing.hearsRates rates).2⟩
  cases changed : engine.rates.change? (some rates) with
  | none =>
      rw [setRates_of_unchanged changed]
      rfl
  | some cell =>
      rw [setRates_of_changed changed,
        connections_tellAll (telling_rates rates)]
      rfl

theorem Showing.setBase {engine : Engine} (showing : engine.Showing)
    (base : Text) :
    (engine.setBase (some base)).1.connections = engine.connections ∧
      engine.Follows (engine.setBase (some base)).1 := by
  refine ⟨?_, (showing.current.follows_setBase showing.accepting
    showing.hearsBase base).2⟩
  cases changed : engine.base.change? (some base) with
  | none =>
      rw [setBase_of_unchanged changed]
      rfl
  | some cell =>
      rw [setBase_of_changed changed,
        connections_tellAll (telling_base base)]
      rfl

/-- Whoever else listens to the signals does not concern the display. -/
theorem Showing.watch {engine : Engine} (showing : engine.Showing)
    (listener : Nat) :
    ({ engine with rates := engine.rates.register (.outside listener) } :
      Engine).Showing ∧
      ({ engine with base := engine.base.register (.outside listener) } :
        Engine).Showing := by
  have current : ∀ {next : Engine}, next.view = engine.view → next.Current :=
    fun sameView => showing.current.of_view_eq sameView
  constructor
  · exact ⟨showing.started, showing.undisposed, showing.accepting,
      List.mem_append_left _ showing.hearsRates, showing.hearsBase,
      current rfl⟩
  · exact ⟨showing.started, showing.undisposed, showing.accepting,
      showing.hearsRates, List.mem_append_left _ showing.hearsBase,
      current rfl⟩

theorem Showing.unwatch {engine : Engine} (showing : engine.Showing)
    (listener : Nat) :
    ({ engine with rates := engine.rates.unregister (.outside listener) } :
      Engine).Showing ∧
      ({ engine with base := engine.base.unregister (.outside listener) } :
        Engine).Showing := by
  have other : EngineListener.display ≠ .outside listener := nofun
  have current : ∀ {next : Engine}, next.view = engine.view → next.Current :=
    fun sameView => showing.current.of_view_eq sameView
  constructor
  · exact ⟨showing.started, showing.undisposed, showing.accepting,
      (List.mem_erase_of_ne other).mpr showing.hearsRates,
      showing.hearsBase, current rfl⟩
  · exact ⟨showing.started, showing.undisposed, showing.accepting,
      showing.hearsRates,
      (List.mem_erase_of_ne other).mpr showing.hearsBase, current rfl⟩

theorem Showing.removeRefusing {engine : Engine}
    (showing : engine.Showing) : engine.removeRefusing.Showing := by
  have accepting : engine.refusing - 1 = 0 := by
    rw [showing.accepting]
  exact ⟨showing.started, showing.undisposed, accepting,
    showing.hearsRates, showing.hearsBase, showing.current.of_view_eq rfl⟩

/-- After its start the display of an engine follows every quiet action. -/
theorem Showing.perform {engine : Engine} (showing : engine.Showing)
    (number : TaskId) {action : Action} (quiet : action.isQuiet = true) :
    (engine.perform number action).Showing ∧
      engine.Follows (engine.perform number action) := by
  have moves : ∀ {next : Engine},
      next.connections = engine.connections ∧ engine.Follows next →
        next.Showing ∧ engine.Follows next := by
    intro next moved
    exact ⟨showing.of_follows moved.1 moved.2, moved.2⟩
  have stays : engine.Showing ∧ engine.Follows engine :=
    ⟨showing, showing.current.follows_self⟩
  have unseen : ∀ {next : Engine}, next.view = engine.view →
      engine.Follows next :=
    fun sameView => showing.current.follows_self.of_view_eq sameView
  cases action with
  | start =>
      have started :
          engine.perform number .start = engine := by
        change engine.start.1 = engine
        rw [start_of_started showing.undisposed showing.started]
        rfl
      rw [started]
      exact stays
  | dispose =>
      cases quiet
  | submit event =>
      exact moves ⟨rfl, unseen rfl⟩
  | handle event =>
      exact moves (showing.begin _)
  | beginNext =>
      exact moves showing.beginNext
  | look task =>
      rcases perform_look_cases engine number task with
        ⟨_, same⟩ | ⟨conversion, _, _, looks⟩
      · rw [same]
        exact stays
      · rw [looks]
        exact moves (showing.look conversion)
  | complete task =>
      rcases perform_complete_cases engine number task with
        ⟨_, same⟩ | ⟨conversion, _, _, ends⟩
      · rw [same]
        exact stays
      · rw [ends]
        exact moves (showing.complete conversion)
  | cancel task =>
      exact moves ⟨rfl, unseen rfl⟩
  | setRates rates =>
      exact moves (showing.setRates rates)
  | setBase base =>
      exact moves (showing.setBase base)
  | watchRates listener =>
      exact ⟨(showing.watch listener).1, unseen rfl⟩
  | unwatchRates listener =>
      exact ⟨(showing.unwatch listener).1, unseen rfl⟩
  | watchBase listener =>
      exact ⟨(showing.watch listener).2, unseen rfl⟩
  | unwatchBase listener =>
      exact ⟨(showing.unwatch listener).2, unseen rfl⟩
  | refuse =>
      cases quiet
  | accept =>
      exact ⟨showing.removeRefusing, unseen rfl⟩

/-- The start of an engine succeeds and shows its first display. -/
theorem Resting.start {engine : Engine} (resting : engine.Resting) :
    engine.start.2 = none ∧ engine.start.1.Showing := by
  obtain ⟨succeeded, current, _⟩ :=
    release_attentive (attentive_connected resting.unpublished)
      resting.accepting
  have sameConnections :
      engine.start.1.connections = engine.connected.connections :=
    connections_congr (frame_start_of_fresh resting.undisposed resting.fresh)
  have released :
      engine.connected.release = (engine.connected.release.1, none) := by
    rw [← succeeded]
  have starts :
      engine.start =
        (engine.connected.release.1.notice
          (.info .started "amount pad started".toList []), none) := by
    rw [start_of_fresh resting.undisposed resting.fresh, released]
    rfl
  simp only [connections, Prod.mk.injEq] at sameConnections
  obtain ⟨sameStarted, sameDisposed, sameRefusing, sameRates, sameBase⟩ :=
    sameConnections
  refine ⟨by rw [starts], ?_, ?_, ?_, ?_, ?_, ?_⟩
  · rw [sameStarted]
    rfl
  · rw [sameDisposed]
    exact resting.undisposed
  · rw [sameRefusing]
    exact resting.accepting
  · rw [sameRates]
    exact List.mem_append_right _ List.mem_cons_self
  · rw [sameBase]
    exact List.mem_append_right _ List.mem_cons_self
  · rw [starts]
    exact current.of_view_eq rfl

/-- An engine that rests goes on to rest or is started by an event whose turn
it is. -/
theorem Resting.begin {engine : Engine} (resting : engine.Resting)
    (submission : Submission) :
    (engine.begin submission).Resting ∨
      (engine.begin submission).Showing := by
  by_cases cancelled : submission.cancelled = true
  · rw [begin_of_cancelled cancelled]
    left
    exact ⟨resting.fresh, resting.undisposed, resting.accepting,
      resting.detached, resting.settled, resting.unpublished,
      resting.unconverting⟩
  · obtain ⟨succeeded, showing⟩ := resting.start
    have starts : engine.start = (engine.start.1, none) := by
      rw [← succeeded]
    rw [begin_of_start_eq (by simpa using cancelled) starts]
    right
    obtain ⟨sameConnections, follows⟩ :=
      showing.beginEvent submission.task submission.event
    exact showing.of_follows sameConnections follows

theorem Resting.setRates {engine : Engine} (resting : engine.Resting)
    (rates : Snapshot) :
    (engine.setRates (some rates)).2 = none ∧
      (engine.setRates (some rates)).1.Resting := by
  rcases setRates_of_detached resting.detached resting.settled rates with
    same | ⟨notices, told⟩
  · rw [same]
    exact ⟨rfl, resting⟩
  · have unconverting : (engine.receiving rates).conversions = [] := by
      simp [receiving, resting.unconverting]
    rw [told]
    exact ⟨rfl, resting.fresh, resting.undisposed, resting.accepting,
      resting.detached, resting.settled, resting.unpublished,
      unconverting⟩

theorem Resting.setBase {engine : Engine} (resting : engine.Resting)
    (base : Text) :
    (engine.setBase (some base)).2 = none ∧
      (engine.setBase (some base)).1.Resting := by
  rcases setBase_of_detached resting.detached resting.settled base with
    same | ⟨notices, told⟩
  · rw [same]
    exact ⟨rfl, resting⟩
  · rw [told]
    exact ⟨rfl, resting.fresh, resting.undisposed, resting.accepting,
      resting.detached, resting.settled, resting.unpublished,
      resting.unconverting⟩

/-- A quiet action starts an engine or leaves it at rest. -/
theorem Resting.perform {engine : Engine} (resting : engine.Resting)
    (number : TaskId) {action : Action} (quiet : action.isQuiet = true) :
    (engine.perform number action).Resting ∨
      (engine.perform number action).Showing := by
  have unconverted : ∀ task, engine.conversionOf? task = none := by
    intro task
    simp [conversionOf?, resting.unconverting]
  have rests : ∀ {next : Engine}, next.started = engine.started →
      next.disposed = engine.disposed → next.refusing = 0 →
      next.attached = engine.attached → next.stale = engine.stale →
      next.published = engine.published → next.conversions = [] →
        next.Resting := by
    intro next sameStarted sameDisposed accepting sameAttached sameStale
      samePublished unconverting
    exact ⟨sameStarted.trans resting.fresh,
      sameDisposed.trans resting.undisposed, accepting,
      sameAttached.trans resting.detached,
      sameStale.trans resting.settled,
      samePublished.trans resting.unpublished, unconverting⟩
  cases action with
  | start =>
      exact .inr resting.start.2
  | dispose =>
      cases quiet
  | handle event =>
      exact resting.begin _
  | beginNext =>
      change engine.beginNext.Resting ∨ engine.beginNext.Showing
      unfold Engine.beginNext
      split
      · exact .inl resting
      case h_2 submission rest _ =>
        have taken : ({ engine with submissions := rest } : Engine).Resting :=
          rests rfl rfl resting.accepting rfl rfl rfl
            resting.unconverting
        exact taken.begin submission
  | look task =>
      change ((engine.conversionOf? task).elim engine engine.look).Resting ∨ _
      rw [unconverted]
      exact .inl resting
  | complete task =>
      change
        ((engine.conversionOf? task).elim engine engine.complete).Resting ∨ _
      rw [unconverted]
      exact .inl resting
  | cancel task =>
      left
      refine rests rfl rfl resting.accepting rfl rfl rfl ?_
      change engine.conversions.map _ = []
      rw [resting.unconverting]
      rfl
  | setRates rates =>
      exact .inl (resting.setRates rates).2
  | setBase base =>
      exact .inl (resting.setBase base).2
  | refuse =>
      cases quiet
  | accept =>
      left
      refine rests rfl rfl ?_ rfl rfl rfl resting.unconverting
      change engine.refusing - 1 = 0
      rw [resting.accepting]
  | _ =>
      exact .inl
        (rests rfl rfl resting.accepting rfl rfl rfl resting.unconverting)

theorem new_resting (config : Config) (rates : Option (Option Snapshot))
    (base : Option (Option Text)) :
    (new config rates base).Resting :=
  ⟨rfl, rfl, rfl, rfl, rfl, rfl, rfl⟩

/-- At every point of a quiet run an engine rests or shows what belongs to its
sources. -/
theorem runFrom_resting_or_showing
    (actions : List Action) {engine : Engine} (number : TaskId)
    (alive : engine.Resting ∨ engine.Showing)
    (quiet : ∀ action ∈ actions, action.isQuiet = true) :
    (engine.runFrom number actions).Resting ∨
      (engine.runFrom number actions).Showing := by
  induction actions generalizing engine number with
  | nil =>
      exact alive
  | cons action rest inductionHypothesis =>
      have first : action.isQuiet = true :=
        quiet action List.mem_cons_self
      have others : ∀ other ∈ rest, other.isQuiet = true :=
        fun other member => quiet other (List.mem_cons_of_mem action member)
      refine inductionHypothesis (number + 1) ?_ others
      rcases alive with resting | showing
      · exact resting.perform number first
      · exact .inr (showing.perform number first).1

theorem Showing.runFrom
    (actions : List Action) {engine : Engine} (showing : engine.Showing)
    (number : TaskId)
    (quiet : ∀ action ∈ actions, action.isQuiet = true) :
    (engine.runFrom number actions).Showing := by
  induction actions generalizing engine number with
  | nil =>
      exact showing
  | cons action rest inductionHypothesis =>
      have first : action.isQuiet = true :=
        quiet action List.mem_cons_self
      have others : ∀ other ∈ rest, other.isQuiet = true :=
        fun other member => quiet other (List.mem_cons_of_mem action member)
      exact inductionHypothesis (showing.perform number first).1
        (number + 1) others

/-- Settling is a quiet run. -/
theorem Showing.settle {engine : Engine} (showing : engine.Showing)
    (distinct : engine.tasks.Nodup) :
    engine.settle.Showing := by
  obtain ⟨looking, ending, settles⟩ := settle_eq_runFrom distinct 0
  rw [settles]
  refine showing.runFrom _ 0 ?_
  intro action member
  simp only [List.mem_append, List.mem_replicate, List.mem_map] at member
  rcases member with (⟨_, rfl⟩ | ⟨_, _, rfl⟩) | ⟨_, _, rfl⟩ <;> rfl

/-- In every quiet run of an engine that is started, the display is at every
point the one that belongs to the sources, and the next action, whatever it is,
tells one display if it leads to another one and none otherwise. -/
theorem display_follows_quiet_runs
    (config : Config) (rates : Option Snapshot) (base : Option Text)
    (actions : List Action)
    (quiet : ∀ action ∈ actions, action.isQuiet = true)
    (started :
      ((new config (rates.map some) (base.map some)).runFrom 0
        actions).started = true) :
    let engine :=
      (new config (rates.map some) (base.map some)).runFrom 0 actions
    engine.published = some (Display.derive config engine.sources) ∧
      ∀ (number : TaskId) (action : Action), action.isQuiet = true →
        let next := engine.perform number action
        next.published = some (Display.derive config next.sources) ∧
          (Display.derive config next.sources =
              Display.derive config engine.sources →
            next.displays = engine.displays) ∧
          (Display.derive config next.sources ≠
              Display.derive config engine.sources →
            next.displays =
              Display.derive config next.sources :: engine.displays) := by
  intro engine
  have configured : engine.config = config :=
    config_runFrom actions _ 0
  have showing : engine.Showing := by
    rcases
        runFrom_resting_or_showing actions 0
          (.inl (new_resting config (rates.map some) (base.map some)))
          quiet with
      resting | showing
    · rw [resting.fresh] at started
      cases started
    · exact showing
  have dueHere :
      engine.dueDisplay = Display.derive config engine.sources := by
    rw [dueDisplay, configured]
  refine ⟨by rw [showing.current.shown, dueHere], ?_⟩
  intro number action quietAction next
  obtain ⟨_, follows⟩ := showing.perform number quietAction
  have dueNext :
      next.dueDisplay = Display.derive config next.sources := by
    rw [dueDisplay, config_perform, configured]
  rw [← dueHere, ← dueNext]
  exact ⟨follows.current.shown, follows.quiet, follows.told⟩

/-- The actions of a run in which neither rates nor a base currency are known
at the start. -/
def lateSignals : List Action :=
  [.start, .submit .separator, .beginNext, .setBase "EUR".toList,
    .setRates ⟨none, []⟩]

theorem display_follows_late_signals :
    let engine := (new Config.default none none).runFrom 0 lateSignals
    engine.started = true ∧
      engine.published =
        some (Display.derive Config.default engine.sources) ∧
      (engine.perform 5 (.handle .clear)).published =
        some (Display.derive Config.default
          (engine.perform 5 (.handle .clear)).sources) := by
  have quiet : ∀ action ∈ lateSignals, action.isQuiet = true := by
    simp [lateSignals, Action.isQuiet]
  have started :
      ((new Config.default none none).runFrom 0 lateSignals).started =
        true := by
    have first := (new_resting Config.default none none).start.2
    refine (first.runFrom lateSignals.tail 1 ?_).started
    intro action member
    exact quiet action (List.mem_of_mem_tail member)
  obtain ⟨shown, follows⟩ :=
    display_follows_quiet_runs Config.default none none lateSignals quiet
      started
  exact ⟨started, shown, (follows 5 (.handle .clear) rfl).1⟩

end Engine

end CurrencyPad
