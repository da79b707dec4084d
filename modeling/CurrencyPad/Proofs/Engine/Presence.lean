import CurrencyPad.Proofs.Engine.Deeds

/-!
# What is shown at any time

From its start until it is disposed an engine shows what belongs to its sources
after every action of every run.  Listeners who refuse displays change nothing
about that: what is refused is shown all the same.  After that the last display
stays, and so does the entry to which it belongs.
-/

namespace CurrencyPad.Engine

variable {engine : Engine}

/-- A release makes an attentive engine current, whether it is refused or not. -/
theorem Attentive.current_release (attentive : engine.Attentive) :
    engine.release.1.Current := by
  have derived :
      Display.derive engine.config engine.heard = engine.dueDisplay := by
    rw [attentive.heard]
    rfl
  unfold release
  split
  case isTrue stale =>
    unfold publish
    rw [derived]
    dsimp only
    split
    case isTrue visible =>
      obtain ⟨display, member, same⟩ := Option.any_eq_true _ _ |>.mp visible
      obtain ⟨sources, rfl⟩ := attentive.drawn display member
      have equal := (Display.derive_beq_iff _ _ _).mp same
      exact ⟨attentive.attached, attentive.heard, rfl,
        member.trans (congrArg some equal)⟩
    case isFalse hidden =>
      split <;> exact ⟨attentive.attached, attentive.heard, rfl, rfl⟩
  case isFalse fresh =>
    have settled : engine.stale = false := by
      simpa using fresh
    exact ⟨attentive.attached, attentive.heard, settled,
      attentive.shownUnlessStale settled⟩

namespace Current

theorem dispatch (current : engine.Current) (event : Event) :
    (engine.dispatch event).1.Current :=
  (current.attentive.change event).current_release

theorem applyCurrency (current : engine.Current) (code : Text)
    (expression : Option Text) :
    (engine.applyCurrency code expression).1.Current := by
  have selected := fun {written : Engine} (attentive : written.Attentive) =>
    ((attentive.writeCurrency code).setOverride false).current_release
  cases expression with
  | none =>
      exact selected current.attentive
  | some text =>
      exact selected (current.attentive.writeExpression text)

theorem convert (current : engine.Current) (conversion : PendingConversion)
    (rates : Snapshot) : (engine.convert conversion rates).1.Current := by
  have noticed : ∀ notice : Notice, (engine.notice notice).Current :=
    fun _ => current.of_view_eq rfl
  unfold Engine.convert
  dsimp only
  split
  · exact (noticed _).applyCurrency _ _
  · exact (noticed _).applyCurrency _ _

theorem beginEvent (current : engine.Current) (task : TaskId)
    (event : Event) : (engine.beginEvent task event).Current := by
  cases event with
  | currency code =>
      change (engine.beginCurrency task code).Current
      cases entered : engine.entry.amountFor? engine.config code with
      | none =>
          rw [beginCurrency_of_none entered]
          exact (current.applyCurrency code none).of_view_eq rfl
      | some amount =>
          rw [beginCurrency_of_some entered]
          exact current.of_view_eq rfl
  | _ =>
      exact (current.dispatch _).of_view_eq rfl

theorem complete (current : engine.Current)
    (conversion : PendingConversion) :
    (engine.complete conversion).Current := by
  have dropped : (engine.dropConversion conversion.task).Current :=
    current.of_view_eq rfl
  unfold Engine.complete
  split
  · exact current
  · exact current
  · exact (dropped.convert conversion _).of_view_eq rfl
  all_goals
    exact current.of_view_eq rfl

theorem look (current : engine.Current) (conversion : PendingConversion) :
    (engine.look conversion).Current := by
  unfold Engine.look
  split
  · exact current.of_view_eq rfl
  · exact current.of_view_eq rfl
  · exact current

end Current

/-- Whoever fails, the display has been told if it is among the listeners. -/
theorem Telling.current_tellAll {tell : Engine → EngineListener → Step}
    {change : DisplaySources → DisplaySources}
    (telling : Telling tell change) (listeners : List EngineListener) :
    ∀ {engine : Engine}, engine.attached = true →
      change engine.heard = engine.sources →
      (∀ display ∈ engine.published, ∃ sources,
        display = Display.derive engine.config sources) →
      change engine.sources = engine.sources →
      .display ∈ listeners → (tellAll tell engine listeners).1.Current := by
  induction listeners with
  | nil =>
      intro engine _ _ _ _ member
      cases member
  | cons listener rest inductionHypothesis =>
      intro engine attached missed drawn known member
      rw [tellAll]
      cases listener with
      | log =>
          obtain ⟨notice, logged⟩ := telling.logged engine
          rw [logged]
          exact inductionHypothesis attached missed drawn known
            (by simpa using member)
      | display =>
          -- From here on nothing changes: a failure stops the telling, and
          -- listeners after the display tell it nothing new.
          have current :=
            (Attentive.hear attached missed drawn).current_release
          have sameSources :
              (engine.hear change).release.1.sources = engine.sources :=
            sources_congr (by simp) (by simp)
          rw [telling.displayed]
          generalize (engine.hear change).release = step
            at current sameSources
          obtain ⟨released, failure⟩ := step
          cases failure with
          | some failure =>
              exact current
          | none =>
              have knows : change released.heard = released.heard := by
                rw [current.heard, sameSources, known]
              obtain ⟨notices, told⟩ :=
                telling.tellAll_of_current rest current knows
              change (tellAll tell released rest).1.Current
              rw [told]
              exact current.of_view_eq rfl
      | outside number =>
          rw [telling.ignored]
          exact inductionHypothesis attached missed drawn known
            (by simpa using member)

theorem Current.setRates (current : engine.Current)
    (hears : .display ∈ engine.rates.listeners) (rates : Snapshot) :
    (engine.setRates (some rates)).1.Current := by
  cases changed : engine.rates.change? (some rates) with
  | none =>
      rw [setRates_of_unchanged changed]
      exact current
  | some cell =>
      rw [setRates_of_changed changed]
      refine (telling_rates rates).current_tellAll _ current.attached ?_
        current.attentive.drawn rfl hears
      rw [receiving, current.heard]
      rfl

theorem Current.setBase (current : engine.Current)
    (hears : .display ∈ engine.base.listeners) (base : Text) :
    (engine.setBase (some base)).1.Current := by
  cases changed : engine.base.change? (some base) with
  | none =>
      rw [setBase_of_unchanged changed]
      exact current
  | some cell =>
      rw [setBase_of_changed changed]
      refine (telling_base base).current_tellAll _ current.attached ?_
        current.attentive.drawn rfl hears
      rw [rebased, current.heard]
      rfl

/-- An engine before its start, which shows nothing and converts nothing. -/
structure Unstarted (engine : Engine) : Prop where
  fresh : engine.started = false
  detached : engine.attached = false
  settled : engine.stale = false
  unpublished : engine.published = none
  unconverting : engine.conversions = []

/-- An engine after its start, which shows what belongs to its sources. -/
structure Presents (engine : Engine) : Prop where
  started : engine.started = true
  current : engine.Current

theorem Presents.of_view_eq {after : Engine} (presents : engine.Presents)
    (sameStarted : after.started = engine.started)
    (sameView : after.view = engine.view) : after.Presents :=
  ⟨sameStarted.trans presents.started, presents.current.of_view_eq sameView⟩

theorem Presents.take (presents : engine.Presents)
    (rest : List Submission) :
    ({ engine with submissions := rest } : Engine).Presents :=
  presents.of_view_eq rfl rfl

theorem Unstarted.take (unstarted : engine.Unstarted)
    (rest : List Submission) :
    ({ engine with submissions := rest } : Engine).Unstarted :=
  ⟨unstarted.fresh, unstarted.detached, unstarted.settled,
    unstarted.unpublished, unstarted.unconverting⟩

theorem Unstarted.start (unstarted : engine.Unstarted)
    (undisposed : engine.disposed = false) : engine.start.1.Presents := by
  have current :=
    (attentive_connected unstarted.unpublished).current_release
  have sameFrame := frame_release engine.connected
  rw [start_of_fresh undisposed unstarted.fresh]
  generalize engine.connected.release = step at current sameFrame
  obtain ⟨released, failure⟩ := step
  have started : released.started = true := congrArg Frame.started sameFrame
  cases failure with
  | some failure =>
      exact ⟨started, current⟩
  | none =>
      exact ⟨started, current.of_view_eq rfl⟩

theorem Presents.beginEvent (presents : engine.Presents) (task : TaskId)
    (event : Event) : (engine.beginEvent task event).Presents := by
  obtain ⟨_, _, _, _, sameFrame⟩ := frame_beginEvent engine task event
  have sameStarted : (engine.beginEvent task event).started =
      engine.started :=
    congrArg Frame.started sameFrame
  exact ⟨sameStarted.trans presents.started,
    presents.current.beginEvent task event⟩

/-- An engine that a task starts, or that was started before, presents its
sources after the turn of the task. -/
theorem Presents.begin_of_start {submission : Submission}
    (uncancelled : submission.cancelled = false)
    (presents : engine.start.1.Presents) :
    (engine.begin submission).Presents := by
  unfold begin
  rw [uncancelled]
  generalize engine.start = step at presents
  obtain ⟨ready, failure⟩ := step
  cases failure with
  | some failure =>
      exact presents.of_view_eq rfl rfl
  | none =>
      exact presents.beginEvent submission.task submission.event

theorem Presents.start (presents : engine.Presents)
    (undisposed : engine.disposed = false) : engine.start.1.Presents := by
  rw [start_of_started undisposed presents.started]
  exact presents

theorem Presents.begin (presents : engine.Presents)
    (undisposed : engine.disposed = false) (submission : Submission) :
    (engine.begin submission).Presents := by
  cases cancelled : submission.cancelled with
  | true =>
      rw [begin_of_cancelled cancelled]
      exact presents.of_view_eq rfl rfl
  | false =>
      exact begin_of_start cancelled (presents.start undisposed)

theorem Unstarted.begin (unstarted : engine.Unstarted)
    (undisposed : engine.disposed = false) (submission : Submission) :
    (engine.begin submission).Unstarted ∨
      (engine.begin submission).Presents := by
  cases cancelled : submission.cancelled with
  | true =>
      rw [begin_of_cancelled cancelled]
      exact .inl ⟨unstarted.fresh, unstarted.detached, unstarted.settled,
        unstarted.unpublished, unstarted.unconverting⟩
  | false =>
      exact .inr (.begin_of_start cancelled (unstarted.start undisposed))

variable {ratesAlone : RatesCell} {baseAlone : BaseCell}

/-- An engine that presents its sources does so after every action but its
disposal. -/
theorem Presents.perform (presents : engine.Presents)
    (undisposed : engine.disposed = false)
    (link : engine.Linked ratesAlone baseAlone) (number : TaskId)
    {action : Action} (keeps : action ≠ .dispose) :
    (engine.perform number action).Presents := by
  -- The display hears of new rates and a new base currency as long as the engine
  -- listens, so the links are needed for these two actions only.
  have listens : engine.listening = true := by
    simp [listening, presents.started, undisposed]
  cases action with
  | start =>
      exact presents.start undisposed
  | dispose =>
      exact absurd rfl keeps
  | handle event =>
      exact presents.begin undisposed _
  | beginNext =>
      rcases perform_beginNext_cases engine number with
        same | ⟨submission, rest, _, begins⟩
      · rw [same]
        exact presents
      · rw [begins]
        exact (presents.take rest).begin undisposed submission
  | look task =>
      rcases perform_look_cases engine number task with
        ⟨_, same⟩ | ⟨conversion, _, _, looks⟩
      · rw [same]
        exact presents
      · rw [looks]
        refine ⟨?_, presents.current.look conversion⟩
        rw [← presents.started]
        unfold look
        split <;> rfl
  | complete task =>
      rcases perform_complete_cases engine number task with
        ⟨_, same⟩ | ⟨conversion, _, _, ends⟩
      · rw [same]
        exact presents
      · rw [ends]
        refine ⟨?_, presents.current.complete conversion⟩
        rw [← presents.started]
        rcases frame_complete engine conversion with
          ⟨same, _⟩ | ⟨finished, sameFrame⟩
        · rw [same]
        · exact congrArg Frame.started sameFrame
  | setRates rates =>
      refine ⟨?_, presents.current.setRates
        (link.1.linked listens).2.1 rates⟩
      rw [← presents.started]
      rcases frame_setRates engine rates with ⟨_, same⟩ | ⟨_, same⟩ <;>
        exact congrArg Frame.started same
  | setBase base =>
      refine ⟨?_, presents.current.setBase
        (link.2.linked listens).2.1 base⟩
      rw [← presents.started]
      rcases frame_setBase engine base with ⟨_, same⟩ | ⟨_, same⟩ <;>
        exact congrArg Frame.started same
  | _ =>
      exact presents.of_view_eq rfl rfl

theorem Unstarted.setRates (unstarted : engine.Unstarted)
    (rates : Snapshot) : (engine.setRates (some rates)).1.Unstarted := by
  rcases setRates_of_detached unstarted.detached unstarted.settled rates with
    same | ⟨notices, told⟩
  · rw [same]
    exact unstarted
  · have unconverting : (engine.receiving rates).conversions = [] := by
      simp [receiving, unstarted.unconverting]
    rw [told]
    exact ⟨unstarted.fresh, unstarted.detached, unstarted.settled,
      unstarted.unpublished, unconverting⟩

theorem Unstarted.setBase (unstarted : engine.Unstarted) (base : Text) :
    (engine.setBase (some base)).1.Unstarted := by
  rcases setBase_of_detached unstarted.detached unstarted.settled base with
    same | ⟨notices, told⟩
  · rw [same]
    exact unstarted
  · rw [told]
    exact ⟨unstarted.fresh, unstarted.detached, unstarted.settled,
      unstarted.unpublished, unstarted.unconverting⟩

/-- An engine that is not started is started by an action or stays as it is. -/
theorem Unstarted.perform (unstarted : engine.Unstarted)
    (undisposed : engine.disposed = false) (number : TaskId)
    {action : Action} (keeps : action ≠ .dispose) :
    (engine.perform number action).Unstarted ∨
      (engine.perform number action).Presents := by
  -- Nothing is looked for or completed before the first turn of a task.
  have absent : ∀ conversion, conversion ∉ engine.conversions := by
    simp [unstarted.unconverting]
  have rests : ∀ {next : Engine}, next.started = engine.started →
      next.attached = engine.attached → next.stale = engine.stale →
      next.published = engine.published → next.conversions = [] →
        next.Unstarted := by
    intro next sameStarted sameAttached sameStale samePublished
      unconverting
    exact ⟨sameStarted.trans unstarted.fresh,
      sameAttached.trans unstarted.detached,
      sameStale.trans unstarted.settled,
      samePublished.trans unstarted.unpublished, unconverting⟩
  cases action with
  | start =>
      exact .inr (unstarted.start undisposed)
  | dispose =>
      exact absurd rfl keeps
  | handle event =>
      exact unstarted.begin undisposed _
  | beginNext =>
      rcases perform_beginNext_cases engine number with
        same | ⟨submission, rest, _, begins⟩
      · rw [same]
        exact .inl unstarted
      · rw [begins]
        exact (unstarted.take rest).begin undisposed submission
  | look task =>
      rcases perform_look_cases engine number task with
        ⟨_, same⟩ | ⟨conversion, pending, _, _⟩
      · rw [same]
        exact .inl unstarted
      · exact absurd pending (absent conversion)
  | complete task =>
      rcases perform_complete_cases engine number task with
        ⟨_, same⟩ | ⟨conversion, pending, _, _⟩
      · rw [same]
        exact .inl unstarted
      · exact absurd pending (absent conversion)
  | cancel task =>
      left
      refine rests rfl rfl rfl rfl ?_
      change engine.conversions.map _ = []
      rw [unstarted.unconverting]
      rfl
  | setRates rates =>
      exact .inl (unstarted.setRates rates)
  | setBase base =>
      exact .inl (unstarted.setBase base)
  | _ =>
      exact .inl (rests rfl rfl rfl rfl unstarted.unconverting)

/-- A display that belongs to an entry, with some rates and some base
currency. -/
def BelongsTo (config : Config) (entry : Entry) (display : Display) : Prop :=
  ∃ rates base,
    display =
      Display.derive config
        ⟨entry.expression, entry.currency, entry.showError, rates, base⟩

/-- What holds of what is shown at every point of a run. -/
structure Faithful (engine : Engine) : Prop where
  linked : ∃ ratesAlone baseAlone, engine.Linked ratesAlone baseAlone
  stopped : engine.disposed = true → engine.Stopped
  live : engine.disposed = false → engine.Unstarted ∨ engine.Presents
  belongs : ∀ display ∈ engine.published,
    BelongsTo engine.config engine.entry display

theorem Current.belongs (current : engine.Current) {display : Display}
    (shown : engine.published = some display) :
    BelongsTo engine.config engine.entry display := by
  rw [current.shown] at shown
  exact ⟨_, _, (Option.some.inj shown).symm⟩

private theorem belongs_of_appearance_eq {before after : Engine}
    (sameConfig : after.config = before.config)
    (sameAppearance : after.appearance = before.appearance)
    (belongs : ∀ display ∈ before.published,
      BelongsTo before.config before.entry display) :
    ∀ display ∈ after.published,
      BelongsTo after.config after.entry display := by
  simp only [appearance, Prod.mk.injEq] at sameAppearance
  obtain ⟨sameEntry, samePublished, _⟩ := sameAppearance
  rw [sameConfig, sameEntry, samePublished]
  exact belongs

theorem Faithful.perform (faithful : engine.Faithful) (number : TaskId)
    (action : Action) : (engine.perform number action).Faithful := by
  obtain ⟨ratesAlone, baseAlone, link⟩ := faithful.linked
  have sameConfig := config_perform engine number action
  have nextLink := link.perform number action
  by_cases disposes : action = .dispose
  · subst disposes
    have stopped : (engine.perform number .dispose).Stopped :=
      .of_dispose faithful.stopped
    refine ⟨⟨_, _, nextLink⟩, fun _ => stopped, fun undisposed => ?_,
      belongs_of_appearance_eq sameConfig (appearance_dispose engine)
        faithful.belongs⟩
    rw [stopped.disposed] at undisposed
    cases undisposed
  · have sameDisposed := disposed_perform engine number disposes
    cases disposed : engine.disposed with
    | true =>
        obtain ⟨stopped, sameAppearance⟩ :=
          (faithful.stopped disposed).perform link number action
        refine ⟨⟨_, _, nextLink⟩, fun _ => stopped, fun undisposed => ?_,
          belongs_of_appearance_eq sameConfig sameAppearance
            faithful.belongs⟩
        rw [stopped.disposed] at undisposed
        cases undisposed
    | false =>
        rw [disposed] at sameDisposed
        have live : (engine.perform number action).Unstarted ∨
            (engine.perform number action).Presents := by
          rcases faithful.live disposed with unstarted | presents
          · exact unstarted.perform disposed number disposes
          · exact .inr (presents.perform disposed link number disposes)
        refine ⟨⟨_, _, nextLink⟩, fun disposedNext => ?_, fun _ => live,
          fun display shown => ?_⟩
        · rw [sameDisposed] at disposedNext
          cases disposedNext
        · rcases live with unstarted | presents
          · rw [unstarted.unpublished] at shown
            cases shown
          · exact presents.current.belongs shown

theorem new_faithful (config : Config) (rates : Option (Option Snapshot))
    (base : Option (Option Text)) : (new config rates base).Faithful :=
  ⟨⟨_, _, new_linked config rates base⟩, nofun,
    fun _ => .inl ⟨rfl, rfl, rfl, rfl, rfl⟩, nofun⟩

theorem faithful_runFrom (config : Config)
    (rates : Option (Option Snapshot)) (base : Option (Option Text))
    (actions : List Action) :
    ((new config rates base).runFrom 0 actions).Faithful :=
  runFrom_induction (motive := fun _ engine => engine.Faithful)
    (fun _ number action faithful => faithful.perform number action) actions
    (new_faithful config rates base)

/-- Only an engine that is not disposed does something.  It presents its sources
then, because a turn starts it if need be. -/
theorem Faithful.presents_of_deed (faithful : engine.Faithful)
    {number : TaskId} {action : Action}
    (does : engine.deed number action ≠ .nothing) :
    engine.disposed = false ∧ (engine.perform number action).Presents := by
  cases disposed : engine.disposed with
  | true =>
      exact absurd ((faithful.stopped disposed).deed number action) does
  | false =>
      refine ⟨rfl, ?_⟩
      obtain ⟨ratesAlone, baseAlone, link⟩ := faithful.linked
      have keeps : action ≠ .dispose := by
        rintro rfl
        exact does rfl
      rcases faithful.live disposed with unstarted | presents
      · rcases engine.deed_cases number action with
          nothing | ⟨submission, source, uncancelled, _⟩ |
            ⟨conversion, pending, _⟩
        · exact absurd nothing does
        · rcases source with ⟨_, rfl⟩ | ⟨rfl, rest, waiting⟩
          · exact .begin_of_start rfl (unstarted.start disposed)
          · rw [Engine.perform, beginNext, waiting]
            exact .begin_of_start uncancelled
              ((unstarted.take rest).start disposed)
        · rw [unstarted.unconverting] at pending
          cases pending
      · exact presents.perform disposed link number keeps

end CurrencyPad.Engine
