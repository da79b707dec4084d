import CurrencyPad.Proofs.Engine.Change

/-!
# Turns of tasks

A task that has its turn starts the engine if need be and leaves the waiting
events.  A choice of currency that has an amount to convert joins the
conversions; every other task ends with its turn.  Looking for rates and
completing touch one conversion each.
-/

namespace CurrencyPad.Engine

/-- An engine that has just begun to listen and is to compute its first
display. -/
def connected (engine : Engine) : Engine :=
  { engine with
    started := true
    rates := (engine.rates.register .log).register .display
    base := (engine.base.register .log).register .display
    attached := true
    heard := engine.sources
    stale := true }

theorem start_of_started {engine : Engine}
    (undisposed : engine.disposed = false)
    (started : engine.started = true) :
    engine.start = engine.ok := by
  simp [start, undisposed, started]

theorem start_of_fresh {engine : Engine}
    (undisposed : engine.disposed = false)
    (fresh : engine.started = false) :
    engine.start =
      andThen engine.connected.release fun engine =>
        (engine.notice
          (.info .started "amount pad started".toList [])).ok := by
  unfold start
  rw [if_neg (by simp [undisposed]), if_neg (by simp [fresh])]
  rfl

private theorem fst_andThen_notice_frame (step : Step) (notice : Notice) :
    (andThen step fun engine => (engine.notice notice).ok).1.frame =
        step.1.frame ∧
      (andThen step fun engine => (engine.notice notice).ok).1.entry =
        step.1.entry := by
  obtain ⟨engine, failure⟩ := step
  cases failure <;> exact ⟨rfl, rfl⟩

theorem frame_start_of_fresh {engine : Engine}
    (undisposed : engine.disposed = false)
    (fresh : engine.started = false) :
    engine.start.1.frame = engine.connected.frame := by
  rw [start_of_fresh undisposed fresh,
    (fst_andThen_notice_frame _ _).1, frame_release]

@[simp]
theorem entry_start (engine : Engine) :
    engine.start.1.entry = engine.entry := by
  by_cases disposed : engine.disposed = true
  · simp [start, disposed]
  · by_cases started : engine.started = true
    · simp [start, disposed, started, ok]
    · rw [start_of_fresh (by simpa using disposed) (by simpa using started),
        (fst_andThen_notice_frame _ _).2, entry_release]
      rfl

@[simp]
theorem submissions_start (engine : Engine) :
    engine.start.1.submissions = engine.submissions := by
  by_cases disposed : engine.disposed = true
  · simp [start, disposed]
  · by_cases started : engine.started = true
    · simp [start, disposed, started, ok]
    · have sameFrame :
          engine.start.1.frame = engine.connected.frame :=
        frame_start_of_fresh
          (by simpa using disposed) (by simpa using started)
      exact congrArg Frame.submissions sameFrame

@[simp]
theorem conversions_start (engine : Engine) :
    engine.start.1.conversions = engine.conversions := by
  by_cases disposed : engine.disposed = true
  · simp [start, disposed]
  · by_cases started : engine.started = true
    · simp [start, disposed, started, ok]
    · have sameFrame :
          engine.start.1.frame = engine.connected.frame :=
        frame_start_of_fresh
          (by simpa using disposed) (by simpa using started)
      exact congrArg Frame.conversions sameFrame

theorem beginCurrency_of_none {engine : Engine} {code : Text}
    (nothing : engine.entry.amountFor? engine.config code = none)
    (task : TaskId) :
    engine.beginCurrency task code =
      finishWith task (engine.applyCurrency code none) := by
  unfold Entry.amountFor? at nothing
  unfold beginCurrency
  split at nothing
  case isTrue same =>
    have selected : code = engine.currency := same
    split
    · rfl
    · rw [if_pos selected]
  case isFalse =>
    have valueless :
        Expression.value? engine.config.locale engine.expression = none :=
      nothing
    rw [valueless]

theorem beginCurrency_of_some {engine : Engine} {code : Text}
    {amount : Binary64.Finite}
    (entered :
      engine.entry.amountFor? engine.config code = some amount)
    (task : TaskId) :
    engine.beginCurrency task code =
      { engine with
        conversions :=
          engine.conversions ++
            [⟨task, engine.currency, code, amount, .requested⟩] } := by
  unfold Entry.amountFor? at entered
  unfold beginCurrency
  split at entered
  · cases entered
  case isFalse different =>
    have other : ¬ code = engine.currency := different
    have valued :
        Expression.value? engine.config.locale engine.expression =
          some amount :=
      entered
    rw [valued]
    simp only [other, if_false]

theorem begin_of_cancelled {engine : Engine} {submission : Submission}
    (cancelled : submission.cancelled = true) :
    engine.begin submission =
      engine.finish submission.task .cancelled := by
  simp [begin, cancelled]

theorem begin_of_start_eq {engine ready : Engine}
    {submission : Submission}
    (uncancelled : submission.cancelled = false)
    (starts : engine.start = (ready, none)) :
    engine.begin submission =
      ready.beginEvent submission.task submission.event := by
  simp [begin, uncancelled, starts]

/-- A turn adds nothing to the waiting events, and to the conversions at most one
of its own task. -/
theorem submissions_conversions_beginEvent
    (engine : Engine) (task : TaskId) (event : Event) :
    (engine.beginEvent task event).submissions = engine.submissions ∧
      ((engine.beginEvent task event).conversions = engine.conversions ∨
        ∃ conversion, conversion.task = task ∧
          (engine.beginEvent task event).conversions =
            engine.conversions ++ [conversion]) := by
  by_cases choice : ∃ code, event = .currency code
  · obtain ⟨code, rfl⟩ := choice
    have turn :
        engine.beginEvent task (.currency code) =
          engine.beginCurrency task code := rfl
    rw [turn]
    cases entered : engine.entry.amountFor? engine.config code with
    | none =>
        have sameFrame := frame_applyCurrency engine code none
        rw [beginCurrency_of_none entered]
        exact ⟨congrArg Frame.submissions sameFrame,
          .inl (congrArg Frame.conversions sameFrame)⟩
    | some amount =>
        rw [beginCurrency_of_some entered]
        exact ⟨rfl, .inr
          ⟨⟨task, engine.currency, code, amount, .requested⟩, rfl, rfl⟩⟩
  · have dispatched :
        engine.beginEvent task event =
          finishWith task (engine.dispatch event) := by
      cases event with
      | currency code =>
          exact absurd ⟨code, rfl⟩ choice
      | _ =>
          rfl
    have sameFrame := frame_dispatch engine event
    rw [dispatched]
    exact ⟨congrArg Frame.submissions sameFrame,
      .inl (congrArg Frame.conversions sameFrame)⟩

theorem submissions_conversions_begin
    (engine : Engine) (submission : Submission) :
    (engine.begin submission).submissions = engine.submissions ∧
      ((engine.begin submission).conversions = engine.conversions ∨
        ∃ conversion, conversion.task = submission.task ∧
          (engine.begin submission).conversions =
            engine.conversions ++ [conversion]) := by
  by_cases cancelled : submission.cancelled = true
  · simp [begin, cancelled, finish]
  · have sameSubmissions := submissions_start engine
    have sameConversions := conversions_start engine
    unfold begin
    rw [if_neg cancelled]
    generalize engine.start = started at sameSubmissions sameConversions ⊢
    obtain ⟨ready, failure⟩ := started
    cases failure with
    | some failure =>
        exact ⟨sameSubmissions, .inl sameConversions⟩
    | none =>
        have turn :=
          submissions_conversions_beginEvent ready submission.task
            submission.event
        rw [← sameSubmissions, ← sameConversions]
        exact turn

/-- The events that wait for their turn and the conversions of an engine, by
their tasks. -/
def tasks (engine : Engine) : List TaskId :=
  engine.submissions.map (·.task) ++ engine.conversions.map (·.task)

theorem tasks_perm_of_added {before after : Engine}
    {conversion : PendingConversion} {task : TaskId}
    (sameSubmissions : after.submissions = before.submissions)
    (added : after.conversions = before.conversions ++ [conversion])
    (sameTask : conversion.task = task) :
    after.tasks.Perm (task :: before.tasks) := by
  unfold tasks
  rw [sameSubmissions, added, List.map_append, ← List.append_assoc,
    ← sameTask]
  exact List.perm_append_comm

theorem tasks_beginNext_nodup {engine : Engine}
    (distinct : engine.tasks.Nodup) :
    engine.beginNext.tasks.Nodup := by
  unfold beginNext
  split
  · exact distinct
  case h_2 submission rest waiting =>
    have parts :
        engine.tasks =
          submission.task ::
            ({ engine with submissions := rest } : Engine).tasks := by
      unfold tasks
      rw [waiting, List.map_cons, List.cons_append]
    rw [parts] at distinct
    obtain ⟨sameSubmissions, conversions⟩ :=
      submissions_conversions_begin
        { engine with submissions := rest } submission
    rcases conversions with same | ⟨conversion, sameTask, added⟩
    · unfold tasks
      rw [sameSubmissions, same]
      exact (List.nodup_cons.mp distinct).2
    · have moved := tasks_perm_of_added sameSubmissions added sameTask
      exact moved.nodup_iff.mpr distinct

def conversionOf? (engine : Engine) (task : TaskId) :
    Option PendingConversion :=
  engine.conversions.find? (·.task == task)

theorem conversionOf?_setConversion_of_ne
    (engine : Engine) (conversion : PendingConversion) {task : TaskId}
    (other : task ≠ conversion.task) :
    (engine.setConversion conversion).conversionOf? task =
      engine.conversionOf? task := by
  unfold setConversion conversionOf?
  dsimp only
  induction engine.conversions with
  | nil =>
      rfl
  | cons head rest inductionHypothesis =>
      rw [List.map_cons, List.find?_cons, List.find?_cons,
        inductionHypothesis]
      by_cases same : head.task = conversion.task
      · have unlikeNew : (conversion.task == task) = false := by
          simpa using Ne.symm other
        have unlikeHead : (head.task == task) = false := by
          rw [same]
          exact unlikeNew
        simp only [same, if_true, unlikeNew]
      · simp only [same, if_false]

theorem conversionOf?_dropConversion_of_ne
    (engine : Engine) {dropped task : TaskId} (other : task ≠ dropped) :
    (engine.dropConversion dropped).conversionOf? task =
      engine.conversionOf? task := by
  unfold dropConversion conversionOf?
  dsimp only
  rw [List.find?_filter]
  congr 1
  funext conversion
  by_cases same : conversion.task = task
  · simp [same, other]
  · simp [same]

theorem conversionOf?_look_of_ne
    (engine : Engine) (conversion : PendingConversion) {task : TaskId}
    (other : task ≠ conversion.task) :
    (engine.look conversion).conversionOf? task =
      engine.conversionOf? task := by
  unfold look
  split
  · exact conversionOf?_setConversion_of_ne engine _ other
  · exact conversionOf?_setConversion_of_ne _ _ other
  · rfl

theorem conversionOf?_complete_of_ne
    (engine : Engine) (conversion : PendingConversion) {task : TaskId}
    (other : task ≠ conversion.task) :
    (engine.complete conversion).conversionOf? task =
      engine.conversionOf? task := by
  have dropped :=
    conversionOf?_dropConversion_of_ne engine other
  unfold complete
  split
  · rfl
  · rfl
  case h_3 rates _ =>
    have sameConversions :=
      congrArg Frame.conversions
        (frame_convert (engine.dropConversion conversion.task) conversion
          rates)
    rw [← dropped]
    exact congrArg (List.find? (·.task == task)) sameConversions
  all_goals
    exact dropped

end CurrencyPad.Engine
