import CurrencyPad.Proofs.Engine.Accounts
import CurrencyPad.Proofs.Engine.Log

/-!
# The log of a run

The log of a run begins with the start of the engine and ends with its disposal.
In between it tells of the deeds of the run, each in the very action that does
it, and of nothing else but of what signals tell.
-/

namespace CurrencyPad.Engine

variable {engine before after : Engine} {number : TaskId}
  {action : Action} {deed : Deed} {told : List Notice}

theorem Logs.filter (logs : Logs deed told before after) :
    after.log.filter (·.topic.isOfDeed) =
      before.log.filter (·.topic.isOfDeed) ++
        deed.reports before.config := by
  have opens : (opening before after).filter (·.topic.isOfDeed) = [] := by
    unfold opening
    split <;> rfl
  have closes : (closing before after).filter (·.topic.isOfDeed) = [] := by
    unfold closing
    split <;> rfl
  have tells : told.filter (·.topic.isOfDeed) = [] := by
    refine List.filter_eq_nil_iff.mpr fun notice member => ?_
    rcases logs.upstream notice member with topic | topic <;>
      simp [topic, LogTopic.isOfDeed]
  have reports : (deed.reports before.config).filter (·.topic.isOfDeed) =
      deed.reports before.config :=
    List.filter_eq_self.mpr fun _ member =>
      Deed.isOfDeed_of_mem_reports member
  rw [logs.log]
  simp only [List.filter_append, opens, closes, tells, reports,
    List.nil_append, List.append_nil]

theorem topic_of_mem_opening {notice : Notice}
    (member : notice ∈ opening before after) : notice.topic = .started := by
  unfold opening at member
  split at member
  · rw [List.mem_singleton.mp member]
    rfl
  · cases member

theorem topic_of_mem_closing {notice : Notice}
    (member : notice ∈ closing before after) :
    notice.topic = .disposed := by
  unfold closing at member
  split at member
  · rw [List.mem_singleton.mp member]
    rfl
  · cases member

/-- What an action logs of signals and of its deed is neither a start nor a
disposal. -/
theorem Logs.topic_ne (logs : Logs deed told before after)
    {notice : Notice}
    (member : notice ∈ told ++ deed.reports before.config) :
    notice.topic ≠ .started ∧ notice.topic ≠ .disposed := by
  rcases List.mem_append.mp member with tells | reports
  · rcases logs.upstream notice tells with topic | topic <;>
      rw [topic] <;>
      exact ⟨nofun, nofun⟩
  · have ofDeed := Deed.isOfDeed_of_mem_reports reports
    constructor <;>
      intro topic <;>
      rw [topic] at ofDeed <;>
      cases ofDeed

/-- After the opening no start is logged. -/
theorem Logs.after_opening (logs : Logs deed told before after) :
    ∃ rest, after.log = before.log ++ opening before after ++ rest ∧
      ∀ notice ∈ rest, notice.topic ≠ .started := by
  refine ⟨told ++ deed.reports before.config ++ closing before after, ?_,
    fun notice member => ?_⟩
  · rw [logs.log]
    simp only [List.append_assoc]
  · rcases List.mem_append.mp member with middle | closes
    · exact (logs.topic_ne middle).1
    · rw [topic_of_mem_closing closes]
      nofun

/-- Before the closing no disposal is logged. -/
theorem Logs.before_closing (logs : Logs deed told before after) :
    ∃ middle, after.log = before.log ++ middle ++ closing before after ∧
      ∀ notice ∈ middle, notice.topic ≠ .disposed := by
  refine ⟨opening before after ++ (told ++ deed.reports before.config), ?_,
    fun notice member => ?_⟩
  · rw [logs.log]
    simp only [List.append_assoc]
  · rcases List.mem_append.mp member with opens | middle
    · rw [topic_of_mem_opening opens]
      nofun
    · exact (logs.topic_ne middle).2

/-- An engine that can still be started could be started before. -/
theorem Faithful.fresh_of_perform (faithful : engine.Faithful)
    (fresh : (engine.perform number action).Fresh) : engine.Fresh := by
  have keeps : action ≠ .dispose := by
    rintro rfl
    have undisposed := fresh.1
    rw [Engine.perform, disposed_dispose] at undisposed
    cases undisposed
  have undisposed : engine.disposed = false :=
    (disposed_perform engine number keeps).symm.trans fresh.1
  refine ⟨undisposed, ?_⟩
  rcases faithful.live undisposed with unstarted | presents
  · exact unstarted.fresh
  · obtain ⟨ratesAlone, baseAlone, link⟩ := faithful.linked
    have started :=
      (presents.perform undisposed link number keeps).started
    rw [fresh.2] at started
    cases started

theorem opening_of_not_fresh (spent : ¬ engine.Fresh) :
    opening engine after = [] := by
  refine if_neg fun ⟨unstarted, _, succeeds⟩ => spent ⟨?_, unstarted⟩
  cases disposed : engine.disposed with
  | false =>
      rfl
  | true =>
      simp [start, disposed] at succeeds

/-- Nothing is logged of an engine that can still be started. -/
theorem Faithful.log_perform_of_fresh (faithful : engine.Faithful)
    (fresh : (engine.perform number action).Fresh) :
    (engine.perform number action).log = engine.log := by
  obtain ⟨undisposed, unstarted⟩ := faithful.fresh_of_perform fresh
  obtain ⟨ratesAlone, baseAlone, link⟩ := faithful.linked
  obtain ⟨told, logs⟩ := logs_perform link number action
  have quiet : told = [] := logs.quiet (by simp [listening, unstarted])
  have idle : engine.deed number action = .nothing := by
    by_contra does
    have started := (faithful.presents_of_deed does).2.started
    rw [fresh.2] at started
    cases started
  have sameStarted := fresh.2.trans unstarted.symm
  have sameDisposed := fresh.1.trans undisposed.symm
  rw [logs.log, quiet, idle, opening_of_eq sameStarted,
    closing_of_eq sameDisposed]
  exact List.append_nil _

theorem log_of_fresh (config : Config) (rates : Option (Option Snapshot))
    (base : Option (Option Text)) (actions : List Action)
    (fresh : ((new config rates base).runFrom 0 actions).Fresh) :
    ((new config rates base).runFrom 0 actions).log = [] := by
  induction actions using List.reverseRecOn with
  | nil =>
      rfl
  | append_singleton actions action inductionHypothesis =>
      have faithful := faithful_runFrom config rates base actions
      rw [runFrom_concat] at fresh ⊢
      rw [faithful.log_perform_of_fresh fresh]
      exact inductionHypothesis (faithful.fresh_of_perform fresh)

/-- An engine that cannot be started any more logs no start. -/
theorem Faithful.log_of_not_fresh (faithful : engine.Faithful)
    (spent : ¬ engine.Fresh) (actions : List Action) (number : TaskId) :
    ∃ rest, (engine.runFrom number actions).log = engine.log ++ rest ∧
      ∀ notice ∈ rest, notice.topic ≠ .started := by
  induction actions generalizing engine number with
  | nil =>
      exact ⟨[], (List.append_nil _).symm, nofun⟩
  | cons action rest inductionHypothesis =>
      obtain ⟨ratesAlone, baseAlone, link⟩ := faithful.linked
      obtain ⟨told, logs⟩ := logs_perform link number action
      obtain ⟨here, log, unopened⟩ := logs.after_opening
      rw [opening_of_not_fresh spent, List.append_nil] at log
      obtain ⟨later, logLater, unopenedLater⟩ :=
        inductionHypothesis (faithful.perform number action)
          (fun fresh => spent (faithful.fresh_of_perform fresh))
          (number + 1)
      refine ⟨here ++ later, ?_,
        List.forall_mem_append.mpr ⟨unopened, unopenedLater⟩⟩
      rw [runFrom, logLater, log, List.append_assoc]

/-- A disposed engine logs nothing. -/
theorem Stopped.log_perform (stopped : engine.Stopped)
    {ratesAlone : RatesCell} {baseAlone : BaseCell}
    (link : engine.Linked ratesAlone baseAlone) (number : TaskId)
    (action : Action) :
    (engine.perform number action).log = engine.log := by
  obtain ⟨told, logs⟩ := logs_perform link number action
  have quiet : told = [] :=
    logs.quiet (by simp [listening, stopped.disposed])
  have spent : ¬ engine.Fresh := by
    rintro ⟨undisposed, _⟩
    rw [stopped.disposed] at undisposed
    cases undisposed
  have sameDisposed :=
    (stopped.perform link number action).1.disposed.trans
      stopped.disposed.symm
  rw [logs.log, quiet, stopped.deed number action,
    opening_of_not_fresh spent, closing_of_eq sameDisposed]
  exact List.append_nil _

theorem Stopped.log_runFrom (stopped : engine.Stopped)
    {ratesAlone : RatesCell} {baseAlone : BaseCell}
    (link : engine.Linked ratesAlone baseAlone) (actions : List Action)
    (number : TaskId) :
    (engine.runFrom number actions).log = engine.log := by
  induction actions generalizing engine number ratesAlone baseAlone with
  | nil =>
      rfl
  | cons action rest inductionHypothesis =>
      have next := (stopped.perform link number action).1
      rw [Engine.runFrom,
        inductionHypothesis next (link.perform number action),
        stopped.log_perform link]

theorem log_of_undisposed (config : Config)
    (rates : Option (Option Snapshot)) (base : Option (Option Text))
    (actions : List Action)
    (undisposed :
      ((new config rates base).runFrom 0 actions).disposed = false) :
    ∀ notice ∈ ((new config rates base).runFrom 0 actions).log,
      notice.topic ≠ .disposed := by
  induction actions using List.reverseRecOn with
  | nil =>
      nofun
  | append_singleton actions action inductionHypothesis =>
      have faithful := faithful_runFrom config rates base actions
      obtain ⟨ratesAlone, baseAlone, link⟩ := faithful.linked
      rw [runFrom_concat] at undisposed ⊢
      obtain ⟨told, logs⟩ := logs_perform link actions.length action
      obtain ⟨middle, log, unclosed⟩ := logs.before_closing
      have keeps : action ≠ .dispose := by
        rintro rfl
        rw [Engine.perform, disposed_dispose] at undisposed
        cases undisposed
      have sameDisposed :=
        disposed_perform ((new config rates base).runFrom 0 actions)
          actions.length keeps
      rw [log, closing_of_eq sameDisposed, List.append_nil]
      exact List.forall_mem_append.mpr
        ⟨inductionHypothesis (sameDisposed.symm.trans undisposed),
          unclosed⟩

theorem Faithful.log_filter (faithful : engine.Faithful)
    (actions : List Action) (number : TaskId) :
    (engine.runFrom number actions).log.filter (·.topic.isOfDeed) =
      engine.log.filter (·.topic.isOfDeed) ++
        (engine.history number actions).flatMap
          (Deed.reports engine.config) := by
  induction actions generalizing engine number with
  | nil =>
      exact (List.append_nil _).symm
  | cons action rest inductionHypothesis =>
      obtain ⟨ratesAlone, baseAlone, link⟩ := faithful.linked
      obtain ⟨told, logs⟩ := logs_perform link number action
      rw [runFrom, inductionHypothesis (faithful.perform number action),
        config_perform, logs.filter, history, List.flatMap_cons,
        List.append_assoc]

theorem runFrom_split (first : Engine) (earlier : List Action)
    (action : Action) (later : List Action) :
    first.runFrom 0 (earlier ++ action :: later) =
      (first.runFrom 0 (earlier ++ [action])).runFrom (earlier.length + 1)
        later := by
  rw [List.append_cons, runFrom_append, Nat.zero_add, List.length_append]
  rfl

/-- What the log of a run tells.  An engine whose first display is refused fails
to start, and no start is logged of it. -/
structure LogTells (first : Engine) (actions : List Action) : Prop where
  deeds :
    (first.runFrom 0 actions).log.filter (·.topic.isOfDeed) =
      (first.history 0 actions).flatMap (Deed.reports first.config)
  step : ∀ earlier action later, actions = earlier ++ action :: later →
    let before := first.runFrom 0 earlier
    let after := first.runFrom 0 (earlier ++ [action])
    let deed : Deed := ⟨before.entry, before.deed earlier.length action⟩
    after.entry = deed.happening.effect first.config before.entry ∧
      ∃ told, Logs deed told before after
  unopened : (first.runFrom 0 actions).Fresh →
    (first.runFrom 0 actions).log = []
  opened : ∀ earlier action later, actions = earlier ++ action :: later →
    let before := first.runFrom 0 earlier
    before.Fresh →
      (first.runFrom 0 (earlier ++ [action])).started = true →
        ∃ rest, (first.runFrom 0 actions).log =
            (if before.start.2 = none then [.start] else []) ++ rest ∧
          ∀ notice ∈ rest, notice.topic ≠ .started
  unclosed : (first.runFrom 0 actions).disposed = false →
    ∀ notice ∈ (first.runFrom 0 actions).log, notice.topic ≠ .disposed
  closed : ∀ earlier later, actions = earlier ++ .dispose :: later →
    let before := first.runFrom 0 earlier
    before.disposed = false →
      (first.runFrom 0 actions).log = before.log ++ [.disposal] ∧
        ∀ notice ∈ before.log, notice.topic ≠ .disposed

private theorem opened_runFrom (config : Config)
    (rates : Option (Option Snapshot)) (base : Option (Option Text))
    (earlier : List Action) (action : Action) (later : List Action)
    (fresh : ((new config rates base).runFrom 0 earlier).Fresh)
    (starts : ((new config rates base).runFrom 0
      (earlier ++ [action])).started = true) :
    ∃ rest, ((new config rates base).runFrom 0
          (earlier ++ action :: later)).log =
        (if ((new config rates base).runFrom 0 earlier).start.2 = none
          then [.start] else []) ++ rest ∧
      ∀ notice ∈ rest, notice.topic ≠ .started := by
  have nothing := log_of_fresh config rates base earlier fresh
  have faithful := faithful_runFrom config rates base earlier
  rw [runFrom_split, runFrom_concat]
  rw [runFrom_concat] at starts
  generalize (new config rates base).runFrom 0 earlier = before at *
  obtain ⟨ratesAlone, baseAlone, link⟩ := faithful.linked
  obtain ⟨told, logs⟩ := logs_perform link earlier.length action
  obtain ⟨here, log, unopened⟩ := logs.after_opening
  have spent : ¬ (before.perform earlier.length action).Fresh := by
    rintro ⟨_, unstarted⟩
    rw [starts] at unstarted
    cases unstarted
  obtain ⟨rest, logLater, unopenedLater⟩ :=
    (faithful.perform earlier.length action).log_of_not_fresh spent later
      (earlier.length + 1)
  refine ⟨here ++ rest, ?_,
    List.forall_mem_append.mpr ⟨unopened, unopenedLater⟩⟩
  rw [logLater, log, nothing, opening]
  simp only [fresh.2, starts, true_and, List.nil_append, List.append_assoc]

private theorem closed_runFrom (config : Config)
    (rates : Option (Option Snapshot)) (base : Option (Option Text))
    (earlier later : List Action)
    (undisposed :
      ((new config rates base).runFrom 0 earlier).disposed = false) :
    ((new config rates base).runFrom 0
        (earlier ++ .dispose :: later)).log =
      ((new config rates base).runFrom 0 earlier).log ++ [.disposal] := by
  have link := (new_linked config rates base).runFrom earlier 0
  have stopped := Stopped.of_dispose
    (stopped_of_disposed config rates base earlier)
  rw [runFrom_split, runFrom_concat]
  exact (stopped.log_runFrom link.dispose later _).trans
    (log_dispose undisposed)

/-- In every run what is logged of deeds is what there is to tell of the deeds
done, each in the action that does it: a calculation that fails, an amount that is
converted, and one for which there is no rate.  The first thing logged is the
start, and nothing is logged after the disposal.  The deeds belong to the events
that were handed in; what is converted was noted at the turn of its task before,
and a task that is cancelled or given up by disposal has no deed any more. -/
theorem log_tells_history (config : Config)
    (rates : Option (Option Snapshot)) (base : Option (Option Text))
    (actions : List Action) :
    LogTells (new config rates base) actions ∧
      HistoryTells (new config rates base) actions := by
  refine ⟨⟨?_, ?_, log_of_fresh config rates base actions, ?_,
    log_of_undisposed config rates base actions, ?_⟩,
    history_tells config rates base actions⟩
  · exact (new_faithful config rates base).log_filter actions 0
  · rintro earlier action later -
    have faithful := faithful_runFrom config rates base earlier
    have sameConfig :=
      config_runFrom earlier (new config rates base) 0
    obtain ⟨ratesAlone, baseAlone, link⟩ := faithful.linked
    rw [runFrom_concat]
    refine ⟨?_, logs_perform link earlier.length action⟩
    rw [entry_perform, sameConfig]
  · rintro earlier action later rfl
    exact opened_runFrom config rates base earlier action later
  · rintro earlier later rfl before undisposed
    exact ⟨closed_runFrom config rates base earlier later undisposed,
      log_of_undisposed config rates base earlier undisposed⟩

example :
    ((new Config.default
        (some (some (.ofBaseTable "USD".toList [("EUR".toList, 1)])))
        none).runFrom 0
      [.start, .handle (.initial (some ⟨.zero, "USD".toList⟩)),
        .handle (.operator .minus), .handle .equals, .handle .clear,
        .handle (.digit five), .handle (.currency "EUR".toList), .look 6,
        .complete 6, .handle (.currency "CHF".toList), .look 9,
        .complete 9, .dispose, .handle .equals]).log.map (·.topic) =
      [.started, .expressionError, .converted, .noConversion,
        .disposed] := by
  decide +kernel

end CurrencyPad.Engine
