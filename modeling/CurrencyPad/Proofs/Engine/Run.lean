import CurrencyPad.Proofs.Engine.Tasks
import CurrencyPad.Proofs.Engine.Upstream

/-!
# Runs of the engine

A run is a list of actions in any order.  An action is what happens without
anything else in between: a call from outside, the turn of a task, a look for
rates, or the end of a conversion.  Settling is one order among the many: all
turns, then all looks, then all ends.
-/

namespace CurrencyPad

/-- What happens in a run, one action after another. -/
inductive Action where
  | start
  | dispose
  /-- An event is handed in and waits for its turn. -/
  | submit (event : Event)
  /-- An event has its turn at once, before those that wait. -/
  | handle (event : Event)
  /-- The first event that waits has its turn. -/
  | beginNext
  /-- The conversion of a task looks for rates. -/
  | look (task : TaskId)
  /-- The conversion of a task ends, unless it waits for rates. -/
  | complete (task : TaskId)
  | cancel (task : TaskId)
  | setRates (rates : Snapshot)
  | setBase (base : Text)
  /-- Someone outside the engine listens to the rates. -/
  | watchRates (number : Nat)
  | unwatchRates (number : Nat)
  /-- Someone outside the engine listens to the base currency. -/
  | watchBase (number : Nat)
  | unwatchBase (number : Nat)
  /-- Someone listens to the display who refuses whatever is told. -/
  | refuse
  | accept

namespace Engine

/-- The engine after an action.  A task that the action makes gets the number of
the action. -/
def perform (engine : Engine) (number : TaskId) : Action → Engine
  | .start => engine.start.1
  | .dispose => engine.dispose
  | .submit event => engine.submit number event
  | .handle event => engine.begin ⟨number, event, false⟩
  | .beginNext => engine.beginNext
  | .look task => (engine.conversionOf? task).elim engine engine.look
  | .complete task =>
      (engine.conversionOf? task).elim engine engine.complete
  | .cancel task => engine.cancel task
  | .setRates rates => (engine.setRates (some rates)).1
  | .setBase base => (engine.setBase (some base)).1
  | .watchRates listener =>
      { engine with rates := engine.rates.register (.outside listener) }
  | .unwatchRates listener =>
      { engine with rates := engine.rates.unregister (.outside listener) }
  | .watchBase listener =>
      { engine with base := engine.base.register (.outside listener) }
  | .unwatchBase listener =>
      { engine with base := engine.base.unregister (.outside listener) }
  | .refuse => engine.addRefusing
  | .accept => engine.removeRefusing

/-- The engine after a run whose first action has the given number. -/
def runFrom (engine : Engine) (number : TaskId) : List Action → Engine
  | [] => engine
  | action :: rest =>
      (engine.perform number action).runFrom (number + 1) rest

theorem runFrom_append
    (engine : Engine) (number : TaskId) (first rest : List Action) :
    engine.runFrom number (first ++ rest) =
      (engine.runFrom number first).runFrom (number + first.length)
        rest := by
  induction first generalizing engine number with
  | nil =>
      rfl
  | cons action tail inductionHypothesis =>
      rw [List.cons_append, runFrom, runFrom, inductionHypothesis,
        List.length_cons, Nat.add_assoc, Nat.add_comm 1]

/-- What every action keeps holds at the end of a run. -/
theorem runFrom_induction {motive : TaskId → Engine → Prop}
    (kept : ∀ (engine : Engine) (number : TaskId) (action : Action),
      motive number engine →
        motive (number + 1) (engine.perform number action))
    (actions : List Action) {engine : Engine} {number : TaskId}
    (first : motive number engine) :
    motive (number + actions.length) (engine.runFrom number actions) := by
  induction actions generalizing engine number with
  | nil =>
      exact first
  | cons action rest inductionHypothesis =>
      rw [List.length_cons, Nat.add_comm rest.length, ← Nat.add_assoc]
      exact inductionHypothesis (kept engine number action first)

theorem conversionOf?_eq_some {engine : Engine} {task : TaskId}
    {conversion : PendingConversion}
    (found : engine.conversionOf? task = some conversion) :
    conversion ∈ engine.conversions ∧ conversion.task = task :=
  ⟨List.mem_of_find?_eq_some found,
    by simpa using List.find?_some found⟩

theorem dispose_of_disposed {engine : Engine}
    (disposed : engine.disposed = true) : engine.dispose = engine := by
  simp [dispose, disposed]

theorem perform_beginNext_cases (engine : Engine) (number : TaskId) :
    engine.perform number .beginNext = engine ∨
      ∃ submission rest, engine.submissions = submission :: rest ∧
        engine.perform number .beginNext =
          ({ engine with submissions := rest } : Engine).begin
            submission := by
  rw [perform]
  unfold beginNext
  split
  · exact .inl rfl
  case h_2 submission rest waiting =>
    exact .inr ⟨submission, rest, waiting, rfl⟩

private theorem elim_conversionOf?_cases
    (engine : Engine) (task : TaskId)
    (step : Engine → PendingConversion → Engine) :
    (engine.conversionOf? task = none ∧
        (engine.conversionOf? task).elim engine (step engine) = engine) ∨
      ∃ conversion ∈ engine.conversions, conversion.task = task ∧
        (engine.conversionOf? task).elim engine (step engine) =
          step engine conversion := by
  cases found : engine.conversionOf? task with
  | none =>
      exact .inl ⟨rfl, rfl⟩
  | some conversion =>
      obtain ⟨member, own⟩ := conversionOf?_eq_some found
      exact .inr ⟨conversion, member, own, rfl⟩

/-- A task looks for rates with the conversion that is pending of it, if one
is. -/
theorem perform_look_cases (engine : Engine) (number task : TaskId) :
    (engine.conversionOf? task = none ∧
        engine.perform number (.look task) = engine) ∨
      ∃ conversion ∈ engine.conversions, conversion.task = task ∧
        engine.perform number (.look task) = engine.look conversion :=
  elim_conversionOf?_cases engine task look

/-- A task ends the conversion that is pending of it, if one is. -/
theorem perform_complete_cases (engine : Engine) (number task : TaskId) :
    (engine.conversionOf? task = none ∧
        engine.perform number (.complete task) = engine) ∨
      ∃ conversion ∈ engine.conversions, conversion.task = task ∧
        engine.perform number (.complete task) =
          engine.complete conversion :=
  elim_conversionOf?_cases engine task complete

/-- An engine that starts has heard of everything and shown nothing. -/
theorem attentive_connected {engine : Engine}
    (unpublished : engine.published = none) : engine.connected.Attentive := by
  have nothing : engine.connected.published = none := unpublished
  refine ⟨rfl, rfl, nofun, fun display member => ?_⟩
  rw [nothing] at member
  cases member

private theorem config_start (engine : Engine) :
    engine.start.1.config = engine.config := by
  by_cases disposed : engine.disposed = true
  · simp [start, disposed]
  · by_cases started : engine.started = true
    · simp [start, disposed, started, ok]
    · have sameFrame :
          engine.start.1.frame = engine.connected.frame :=
        frame_start_of_fresh
          (by simpa using disposed) (by simpa using started)
      exact congrArg Frame.config sameFrame

private theorem config_beginEvent
    (engine : Engine) (task : TaskId) (event : Event) :
    (engine.beginEvent task event).config = engine.config := by
  cases event with
  | currency code =>
      change (engine.beginCurrency task code).config = engine.config
      unfold beginCurrency
      split
      · exact congrArg Frame.config
          (frame_applyCurrency engine code none)
      · split
        · exact congrArg Frame.config
            (frame_applyCurrency engine code none)
        · rfl
  | _ =>
      exact congrArg Frame.config (frame_dispatch engine _)

private theorem config_begin (engine : Engine) (submission : Submission) :
    (engine.begin submission).config = engine.config := by
  have started := config_start engine
  unfold begin
  split
  · rfl
  · generalize engine.start = step at started ⊢
    obtain ⟨ready, failure⟩ := step
    cases failure with
    | some failure =>
        exact started
    | none =>
        exact (config_beginEvent ready _ _).trans started

private theorem config_complete
    (engine : Engine) (conversion : PendingConversion) :
    (engine.complete conversion).config = engine.config := by
  unfold complete
  split
  case h_3 rates _ =>
    exact congrArg Frame.config
      (frame_convert (engine.dropConversion conversion.task) conversion
        rates)
  all_goals
    rfl

private theorem config_setRates (engine : Engine) (rates : Snapshot) :
    (engine.setRates (some rates)).1.config = engine.config := by
  cases changed : engine.rates.change? (some rates) with
  | none =>
      rw [setRates_of_unchanged changed]
      rfl
  | some cell =>
      rw [setRates_of_changed changed]
      exact congrArg Frame.config
        ((telling_rates rates).entry_frame_tellAll _ _).2

private theorem config_setBase (engine : Engine) (base : Text) :
    (engine.setBase (some base)).1.config = engine.config := by
  cases changed : engine.base.change? (some base) with
  | none =>
      rw [setBase_of_unchanged changed]
      rfl
  | some cell =>
      rw [setBase_of_changed changed]
      exact congrArg Frame.config
        ((telling_base base).entry_frame_tellAll _ _).2

/-- No action changes the configuration. -/
theorem config_perform
    (engine : Engine) (number : TaskId) (action : Action) :
    (engine.perform number action).config = engine.config := by
  cases action with
  | start =>
      exact config_start engine
  | dispose =>
      change engine.dispose.config = engine.config
      unfold dispose
      split <;> rfl
  | handle event =>
      exact config_begin engine _
  | beginNext =>
      rcases perform_beginNext_cases engine number with
        same | ⟨submission, rest, _, begins⟩
      · rw [same]
      · rw [begins]
        exact config_begin _ submission
  | look task =>
      rcases perform_look_cases engine number task with
        ⟨_, same⟩ | ⟨conversion, _, _, looks⟩
      · rw [same]
      · rw [looks]
        unfold look
        split <;> rfl
  | complete task =>
      rcases perform_complete_cases engine number task with
        ⟨_, same⟩ | ⟨conversion, _, _, ends⟩
      · rw [same]
      · rw [ends]
        exact config_complete engine conversion
  | setRates rates =>
      exact config_setRates engine rates
  | setBase base =>
      exact config_setBase engine base
  | _ =>
      rfl

theorem config_runFrom
    (actions : List Action) (engine : Engine) (number : TaskId) :
    (engine.runFrom number actions).config = engine.config := by
  induction actions generalizing engine number with
  | nil =>
      rfl
  | cons action rest inductionHypothesis =>
      rw [runFrom, inductionHypothesis, config_perform]

theorem runFrom_replicate_beginNext
    (count : Nat) (engine : Engine) (number : TaskId) :
    engine.runFrom number (List.replicate count .beginNext) =
      beginMany count engine := by
  induction count generalizing engine number with
  | zero =>
      rfl
  | succ count inductionHypothesis =>
      rw [List.replicate_succ, runFrom, inductionHypothesis]
      rfl

theorem tasks_beginMany_nodup
    (count : Nat) {engine : Engine} (distinct : engine.tasks.Nodup) :
    (beginMany count engine).tasks.Nodup := by
  induction count generalizing engine with
  | zero =>
      exact distinct
  | succ count inductionHypothesis =>
      exact inductionHypothesis (tasks_beginNext_nodup distinct)

/-- Steps for distinct conversions, each of which leaves the other conversions
alone, can be taken by the numbers of their tasks. -/
private theorem runFrom_map_conversions
    {step : Engine → PendingConversion → Engine}
    {action : TaskId → Action}
    (performs : ∀ (engine : Engine) (number task : TaskId),
      engine.perform number (action task) =
        (engine.conversionOf? task).elim engine (step engine))
    (leavesOthers :
      ∀ (engine : Engine) (conversion : PendingConversion) {task : TaskId},
        task ≠ conversion.task →
          (step engine conversion).conversionOf? task =
            engine.conversionOf? task)
    (conversions : List PendingConversion) :
    ∀ (engine : Engine) (number : TaskId),
      (conversions.map (·.task)).Nodup →
      (∀ conversion ∈ conversions,
        engine.conversionOf? conversion.task = some conversion) →
        engine.runFrom number
            (conversions.map fun conversion => action conversion.task) =
          conversions.foldl step engine := by
  induction conversions with
  | nil =>
      intro engine number _ _
      rfl
  | cons conversion rest inductionHypothesis =>
      intro engine number distinct found
      rw [List.map_cons, List.nodup_cons] at distinct
      have first :
          engine.perform number (action conversion.task) =
            step engine conversion := by
        rw [performs, found conversion List.mem_cons_self]
        rfl
      rw [List.map_cons, runFrom, first, List.foldl_cons]
      apply inductionHypothesis
      · exact distinct.2
      · intro later member
        have other : later.task ≠ conversion.task := by
          intro same
          apply distinct.1
          rw [← same]
          exact List.mem_map_of_mem member
        rw [leavesOthers engine conversion other]
        exact found later (List.mem_cons_of_mem conversion member)

theorem conversionOf?_eq_some_of_mem {engine : Engine}
    (distinct : (engine.conversions.map (·.task)).Nodup)
    {conversion : PendingConversion}
    (member : conversion ∈ engine.conversions) :
    engine.conversionOf? conversion.task = some conversion := by
  unfold conversionOf?
  generalize engine.conversions = conversions at distinct member
  induction conversions with
  | nil =>
      cases member
  | cons head rest inductionHypothesis =>
      rw [List.map_cons, List.nodup_cons] at distinct
      rcases List.mem_cons.mp member with rfl | later
      · simp
      · have other : (head.task == conversion.task) = false := by
          have different : head.task ≠ conversion.task := by
            intro same
            apply distinct.1
            rw [same]
            exact List.mem_map_of_mem later
          simpa using different
        rw [List.find?_cons, other]
        exact inductionHypothesis distinct.2 later

private theorem map_task_setConversion
    (engine : Engine) (conversion : PendingConversion) :
    (engine.setConversion conversion).conversions.map (·.task) =
      engine.conversions.map (·.task) := by
  unfold setConversion
  rw [List.map_map]
  apply List.map_congr_left
  intro other _
  by_cases same : other.task = conversion.task
  · simp [same]
  · simp [same]

theorem map_task_look
    (engine : Engine) (conversion : PendingConversion) :
    (engine.look conversion).conversions.map (·.task) =
      engine.conversions.map (·.task) := by
  unfold look
  split
  · exact map_task_setConversion engine _
  · exact map_task_setConversion _ _
  · rfl

private theorem map_task_foldl_look
    (conversions : List PendingConversion) (engine : Engine) :
    (conversions.foldl look engine).conversions.map (·.task) =
      engine.conversions.map (·.task) := by
  induction conversions generalizing engine with
  | nil =>
      rfl
  | cons conversion rest inductionHypothesis =>
      rw [List.foldl_cons, inductionHypothesis, map_task_look]

/-- Settling begins with a run in which every waiting event has its turn and
every conversion looks for rates.  Then all conversions are ended that need not
wait. -/
theorem settle_eq_foldl_complete {engine : Engine}
    (distinct : engine.tasks.Nodup) (number : TaskId) :
    ∃ (looking : List TaskId) (looked : Engine),
      looked =
          engine.runFrom number
            (List.replicate engine.submissions.length .beginNext ++
              looking.map .look) ∧
        (looked.conversions.map (·.task)).Nodup ∧
        engine.settle = looked.conversions.foldl complete looked := by
  let begun := beginMany engine.submissions.length engine
  have begunDistinct : (begun.conversions.map (·.task)).Nodup :=
    (List.nodup_append.mp
      (tasks_beginMany_nodup engine.submissions.length distinct)).2.1
  have lookRun : ∀ number,
      begun.runFrom number
          (begun.conversions.map fun conversion =>
            .look conversion.task) =
        begun.conversions.foldl look begun := by
    intro number
    exact runFrom_map_conversions (fun _ _ _ => rfl)
      conversionOf?_look_of_ne begun.conversions begun number
      begunDistinct
      fun _ member => conversionOf?_eq_some_of_mem begunDistinct member
  refine ⟨begun.conversions.map (·.task),
    begun.conversions.foldl look begun, ?_, ?_, rfl⟩
  · rw [runFrom_append, runFrom_replicate_beginNext, List.map_map]
    exact (lookRun _).symm
  · rw [map_task_foldl_look]
    exact begunDistinct

/-- Settling is a run: every waiting event has its turn, then every conversion
looks for rates, then every conversion ends that need not wait. -/
theorem settle_eq_runFrom {engine : Engine}
    (distinct : engine.tasks.Nodup) (number : TaskId) :
    ∃ looking ending : List TaskId,
      engine.settle =
        engine.runFrom number
          (List.replicate engine.submissions.length .beginNext ++
            looking.map .look ++ ending.map .complete) := by
  obtain ⟨looking, looked, looks, lookedDistinct, settles⟩ :=
    settle_eq_foldl_complete distinct number
  have endRun : ∀ number,
      looked.runFrom number
          (looked.conversions.map fun conversion =>
            .complete conversion.task) =
        looked.conversions.foldl complete looked := by
    intro number
    exact runFrom_map_conversions (fun _ _ _ => rfl)
      conversionOf?_complete_of_ne looked.conversions looked number
      lookedDistinct
      fun _ member => conversionOf?_eq_some_of_mem lookedDistinct member
  refine ⟨looking, looked.conversions.map (·.task), ?_⟩
  rw [runFrom_append, ← looks, List.map_map, settles]
  exact (endRun _).symm

end Engine

end CurrencyPad
