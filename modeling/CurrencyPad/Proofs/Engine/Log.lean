import CurrencyPad.Proofs.Engine.Flags
import CurrencyPad.Proofs.Engine.Presence

/-!
# What an action logs

The log of an engine lists its notices in the order in which they were made.  An
action adds at most four things to it: that the engine starts, what a signal
tells, what is done to the entry, and that the engine is disposed.
-/

namespace CurrencyPad

/-- Whether a topic is about something that is done to the entry. -/
def LogTopic.isOfDeed : LogTopic → Bool
  | .expressionError => true
  | .converted => true
  | .noConversion => true
  | _ => false

namespace Notice

def start : Notice :=
  .info .started "amount pad started".toList []

def disposal : Notice :=
  .info .disposed "amount pad disposed".toList []

def failure (expression : Text) (error : Expression.ValueError) : Notice :=
  .warning .expressionError error.message.toList
    [("expression", .string expression)] (Engine.errorCode error)

def conversion (capture : Capture) (converted : Binary64.Finite) : Notice :=
  .info .converted
    ("converted ".toList ++ capture.source ++ " -> ".toList ++
      capture.target)
    [ ("from", .string capture.source), ("to", .string capture.target),
      ("amount", .real capture.amount.value),
      ("converted", .real converted.value) ]

def missingRate (capture : Capture) : Notice :=
  .warning .noConversion
    ("no rate from ".toList ++
      (if capture.source.isEmpty then ['?'] else capture.source) ++
      " to ".toList ++ capture.target)
    [("from", .string capture.source), ("to", .string capture.target)]
    "no_rate_path"

end Notice

/-- What the log is to tell of a deed: a calculation that fails, unless there is
nothing to calculate, and whether the amount of a conversion was converted with
the rates that it received. -/
def Deed.reports (config : Config) (deed : Deed) : List Notice :=
  match deed.happening with
  | .applied _ .equals =>
      match Expression.evaluate config.locale deed.entry.expression with
      | .ok _ => []
      | .error error =>
          if Text.isBlankText deed.entry.expression then []
          else [.failure deed.entry.expression error]
  | .converted capture rates =>
      match rates.convert? capture.source capture.target
          capture.amount.value with
      | some converted => [.conversion capture converted]
      | none => [.missingRate capture]
  | _ => []

/-- What is reported of a deed is about deeds. -/
theorem Deed.isOfDeed_of_mem_reports {config : Config} {deed : Deed}
    {notice : Notice} (member : notice ∈ deed.reports config) :
    notice.topic.isOfDeed = true := by
  unfold reports at member
  split at member
  · split at member
    · cases member
    · split at member
      · cases member
      · rw [List.mem_singleton.mp member]
        rfl
  · split at member <;>
      rw [List.mem_singleton.mp member] <;>
      rfl
  · cases member

namespace Engine

/-- All notices so far, the first of them first. -/
def log (engine : Engine) : List Notice :=
  engine.notices.reverse

/-! ## Changes of the engine -/

@[simp]
theorem log_notice (engine : Engine) (notice : Notice) :
    (engine.notice notice).log = engine.log ++ [notice] :=
  List.reverse_cons

@[simp]
theorem log_hear (engine : Engine)
    (change : DisplaySources → DisplaySources) :
    (engine.hear change).log = engine.log := by
  unfold hear
  split <;> rfl

@[simp]
theorem log_publish (engine : Engine) :
    engine.publish.1.log = engine.log := by
  unfold publish
  dsimp only
  split
  · rfl
  · split <;> rfl

@[simp]
theorem log_release (engine : Engine) :
    engine.release.1.log = engine.log := by
  unfold release
  split
  · exact log_publish engine
  · rfl

@[simp]
theorem log_writeExpression (engine : Engine) (text : Text) :
    (engine.writeExpression text).log = engine.log := by
  unfold writeExpression
  split
  · rfl
  · rw [log_hear]
    rfl

@[simp]
theorem log_writeCurrency (engine : Engine) (code : Text) :
    (engine.writeCurrency code).log = engine.log := by
  unfold writeCurrency
  split
  · rfl
  · rw [log_hear]
    rfl

@[simp]
theorem log_writeShowError (engine : Engine) (shown : Bool) :
    (engine.writeShowError shown).log = engine.log := by
  unfold writeShowError
  split
  · rfl
  · rw [log_hear]
    rfl

@[simp]
theorem log_setOverride (engine : Engine) (override : Bool) :
    (engine.setOverride override).log = engine.log := rfl

@[simp]
theorem log_edit (engine : Engine) (text : Text) :
    (engine.edit text).log = engine.log := by
  simp [edit]

@[simp]
theorem log_fillIn (engine : Engine) (money : Money) :
    (engine.fillIn money).log = engine.log := by
  unfold fillIn
  dsimp only
  split <;> simp

@[simp]
theorem log_applyCurrency (engine : Engine) (code : Text)
    (expression : Option Text) :
    (engine.applyCurrency code expression).1.log = engine.log := by
  cases expression <;> simp [applyCurrency]

/-! ## Deeds -/

theorem log_calculate (engine : Engine) (task : TaskId) :
    engine.calculate.log =
      engine.log ++
        Deed.reports engine.config
          ⟨engine.entry, .applied task .equals⟩ := by
  have sameText : engine.entry.expression = engine.expression := rfl
  unfold calculate Deed.reports
  simp only [sameText]
  cases Expression.evaluate engine.config.locale engine.expression with
  | ok value =>
      simp
  | error error =>
      cases Text.isBlankText engine.expression <;>
        simp [Notice.failure]

/-- An event that has its turn is logged as the deed that it is. -/
theorem log_dispatch (engine : Engine) (task : TaskId) (event : Event) :
    (engine.dispatch event).1.log =
      engine.log ++
        Deed.reports engine.config
          ⟨engine.entry, .applied task event⟩ := by
  rw [dispatch, log_release]
  cases event with
  | backspace =>
      simp only [change]
      split <;> simp [Deed.reports]
  | equals =>
      exact log_calculate engine task
  | initial value =>
      cases value <;> simp [change, Deed.reports]
  | _ =>
      simp [change, Deed.reports]

/-- A conversion is logged with what was captured when it began. -/
theorem log_convert (engine : Engine) (conversion : PendingConversion)
    (rates : Snapshot) (config : Config) (entry : Entry) :
    (engine.convert conversion rates).1.log =
      engine.log ++
        Deed.reports config
          ⟨entry, .converted conversion.capture rates⟩ := by
  have same : rates.convert? conversion.capture.source
      conversion.capture.target conversion.capture.amount.value =
        rates.convert? conversion.source conversion.target
          conversion.amount.value := rfl
  unfold convert Deed.reports
  simp only [same]
  cases rates.convert? conversion.source conversion.target
      conversion.amount.value <;>
    simp [Notice.conversion, Notice.missingRate,
      PendingConversion.capture]

theorem log_beginEvent (engine : Engine) (task : TaskId) (event : Event) :
    (engine.beginEvent task event).log =
      engine.log ++
        Deed.reports engine.config ⟨engine.entry, engine.turn task event⟩ := by
  cases event with
  | currency code =>
      change (engine.beginCurrency task code).log = _
      cases entered : engine.entry.amountFor? engine.config code with
      | none =>
          rw [beginCurrency_of_none entered]
          change (engine.applyCurrency code none).1.log = _
          simp [turn, entered, Deed.reports]
      | some amount =>
          rw [beginCurrency_of_some entered]
          simp [turn, entered, Deed.reports, log]
  | _ =>
      exact log_dispatch engine task _

theorem log_complete (engine : Engine) (conversion : PendingConversion) :
    (engine.complete conversion).log =
      engine.log ++
        Deed.reports engine.config ⟨engine.entry, conversion.ending⟩ := by
  unfold complete PendingConversion.ending
  cases conversion.read with
  | received rates =>
      cases rates with
      | some rates =>
          exact log_convert _ conversion rates engine.config engine.entry
      | none =>
          exact (List.append_nil _).symm
  | _ =>
      exact (List.append_nil _).symm

/-! ## Start and disposal -/

/-- What is logged where an engine starts, unless its start fails. -/
def opening (before after : Engine) : List Notice :=
  if before.started = false ∧ after.started = true ∧
      before.start.2 = none then [.start]
  else []

/-- What is logged where an engine is disposed. -/
def closing (before after : Engine) : List Notice :=
  if before.disposed = false ∧ after.disposed = true then [.disposal]
  else []

variable {before after engine : Engine} {deed : Deed}

theorem opening_of_eq (same : after.started = before.started) :
    opening before after = [] := by
  refine if_neg fun ⟨fresh, started, _⟩ => ?_
  rw [same, fresh] at started
  cases started

theorem closing_of_eq (same : after.disposed = before.disposed) :
    closing before after = [] := by
  refine if_neg fun ⟨undisposed, disposed⟩ => ?_
  rw [same, undisposed] at disposed
  cases disposed

theorem opening_of_failure {failure : EngineFailure}
    (fails : before.start.2 = some failure) : opening before after = [] := by
  refine if_neg fun ⟨_, _, succeeds⟩ => ?_
  rw [fails] at succeeds
  cases succeeds

/-- An engine starts without failure if its first display is not refused. -/
theorem failure_start_of_fresh (fresh : engine.Fresh) :
    engine.start.2 = engine.connected.publish.2 := by
  have released : engine.connected.release = engine.connected.publish :=
    if_pos rfl
  rw [start_of_fresh fresh.1 fresh.2, released]
  cases engine.connected.publish with
  | mk ready failure =>
      cases failure <;> rfl

/-- What waits for its turn has no say in the start. -/
theorem start_failure_take (engine : Engine) (rest : List Submission) :
    ({ engine with submissions := rest } : Engine).start.2 =
      engine.start.2 := by
  by_cases disposed : engine.disposed = true
  · simp [start, disposed]
  · by_cases started : engine.started = true
    · simp [start, disposed, started, ok]
    · have fresh : engine.Fresh :=
        ⟨by simpa using disposed, by simpa using started⟩
      have taken : ({ engine with submissions := rest } : Engine).Fresh :=
        fresh
      rw [failure_start_of_fresh fresh, failure_start_of_fresh taken,
        failure_publish, failure_publish]
      rfl

theorem log_start (engine : Engine) :
    engine.start.1.log = engine.log ++ opening engine engine.start.1 := by
  by_cases disposed : engine.disposed = true
  · have fails : engine.start = (engine, some .disposed) := by
      simp [start, disposed]
    rw [fails, opening_of_eq rfl, List.append_nil]
  · by_cases started : engine.started = true
    · rw [start_of_started (by simpa using disposed) started]
      change engine.log = engine.log ++ opening engine engine
      rw [opening_of_eq rfl, List.append_nil]
    · have fresh : engine.Fresh :=
        ⟨by simpa using disposed, by simpa using started⟩
      have starts := start_of_fresh fresh.1 fresh.2
      have sameLog := log_release engine.connected
      have startedNow : engine.start.1.started = true :=
        congrArg Frame.started (frame_start_of_fresh fresh.1 fresh.2)
      cases released : engine.connected.release with
      | mk ready failure =>
          rw [released] at starts sameLog
          cases failure with
          | some failure =>
              have fails : engine.start.2 = some failure :=
                congrArg Prod.snd starts
              rw [opening_of_failure fails, List.append_nil, starts]
              exact sameLog
          | none =>
              have succeeds : engine.start.2 = none :=
                congrArg Prod.snd starts
              rw [opening, if_pos ⟨fresh.2, startedNow, succeeds⟩, starts]
              change (ready.notice .start).log = _
              rw [log_notice]
              exact congrArg (· ++ [Notice.start]) sameLog

/-! ## Actions -/

/-- How an action that does a deed adds to the log.  What a signal tells is logged
only while the engine listens. -/
structure Logs (deed : Deed) (told : List Notice) (before after : Engine) :
    Prop where
  log : after.log =
    before.log ++ (opening before after ++ told ++
      deed.reports before.config ++ closing before after)
  upstream : ∀ notice ∈ told,
    notice.topic = .rates ∨ notice.topic = .baseCurrency
  quiet : before.listening = false → told = []

theorem Logs.of_deed (started : after.started = before.started)
    (disposed : after.disposed = before.disposed)
    (log : after.log = before.log ++ deed.reports before.config) :
    Logs deed [] before after := by
  refine ⟨?_, nofun, fun _ => rfl⟩
  rw [opening_of_eq started, closing_of_eq disposed, log]
  simp

theorem opening_congr {middle : Engine}
    (same : after.started = middle.started) :
    opening before after = opening before middle := by
  rw [opening, opening, same]

theorem disposed_start (engine : Engine) :
    engine.start.1.disposed = engine.disposed :=
  @disposed_perform engine 0 .start nofun

theorem logs_start (engine : Engine) :
    Logs ⟨engine.entry, .nothing⟩ [] engine engine.start.1 := by
  refine ⟨?_, nofun, fun _ => rfl⟩
  rw [log_start, closing_of_eq (disposed_start engine)]
  simp [Deed.reports]

/-- The turn of a task opens the log if it starts the engine, and goes on with its
deed. -/
theorem logs_begin (engine : Engine) (submission : Submission) :
    Logs ⟨engine.entry, engine.turnOf submission⟩ [] engine
      (engine.begin submission) := by
  have goesOn : ∀ {next : Engine},
      next.started = engine.start.1.started →
      next.disposed = engine.start.1.disposed →
      next.log = engine.start.1.log ++
        Deed.reports engine.config
          ⟨engine.entry, engine.turnOf submission⟩ →
        Logs ⟨engine.entry, engine.turnOf submission⟩ [] engine next := by
    intro next started disposed log
    refine ⟨?_, nofun, fun _ => rfl⟩
    rw [log, log_start, opening_congr started,
      closing_of_eq (disposed.trans (disposed_start engine))]
    simp
  rcases engine.begin_cases submission with
    ⟨nothing, ready, outcome, isReady, ends⟩ | ⟨_, _, turns, begins⟩
  · rw [ends]
    rcases isReady with rfl | rfl
    · refine .of_deed rfl rfl ?_
      rw [nothing]
      exact (List.append_nil _).symm
    · refine goesOn rfl rfl ?_
      rw [nothing]
      exact (List.append_nil _).symm
  · obtain ⟨_, _, _, _, sameFrame⟩ :=
      frame_beginEvent engine.start.1 submission.task submission.event
    have sameConfig : engine.start.1.config = engine.config :=
      config_perform engine 0 .start
    have turned :=
      log_beginEvent engine.start.1 submission.task submission.event
    rw [entry_start, sameConfig, ← turns] at turned
    rw [begins]
    exact goesOn (congrArg Frame.started sameFrame)
      (congrArg Frame.disposed sameFrame) turned

/-- Telling the listeners of a signal logs notices of the signal's topic only. -/
theorem Telling.log_tellAll {tell : Engine → EngineListener → Step}
    {change : DisplaySources → DisplaySources} (telling : Telling tell change)
    {topic : LogTopic}
    (about : ∀ engine, ∃ notice : Notice, notice.topic = topic ∧
      tell engine .log = (engine.notice notice).ok)
    (listeners : List EngineListener) (engine : Engine) :
    ∃ told, (tellAll tell engine listeners).1.log = engine.log ++ told ∧
      ∀ notice ∈ told, notice.topic = topic := by
  induction listeners generalizing engine with
  | nil =>
      exact ⟨[], (List.append_nil _).symm, nofun⟩
  | cons listener rest inductionHypothesis =>
      rw [tellAll]
      cases listener with
      | log =>
          obtain ⟨notice, isAbout, logged⟩ := about engine
          obtain ⟨told, log, each⟩ :=
            inductionHypothesis (engine.notice notice)
          rw [log_notice, List.append_assoc] at log
          rw [logged]
          exact ⟨notice :: told, log,
            List.forall_mem_cons.mpr ⟨isAbout, each⟩⟩
      | display =>
          have sameLog : (engine.hear change).release.1.log = engine.log := by
            simp
          rw [telling.displayed]
          generalize (engine.hear change).release = step at sameLog
          obtain ⟨released, failure⟩ := step
          cases failure with
          | some failure =>
              exact ⟨[], sameLog.trans (List.append_nil _).symm, nofun⟩
          | none =>
              obtain ⟨told, log, each⟩ := inductionHypothesis released
              rw [sameLog] at log
              exact ⟨told, log, each⟩
      | outside number =>
          rw [telling.ignored]
          exact inductionHypothesis engine

/-- A signal that tells a changed engine of its new value adds to the log what it
tells. -/
theorem Telling.logs_tellAll {tell : Engine → EngineListener → Step}
    {change : DisplaySources → DisplaySources} (telling : Telling tell change)
    {topic : LogTopic} (isSignal : topic = .rates ∨ topic = .baseCurrency)
    (about : ∀ engine, ∃ notice : Notice, notice.topic = topic ∧
      tell engine .log = (engine.notice notice).ok)
    {changed : Engine} (sameLog : changed.log = engine.log)
    (sameStarted : changed.started = engine.started)
    (sameDisposed : changed.disposed = engine.disposed)
    {listeners : List EngineListener}
    (outside : engine.listening = false →
      ∀ listener ∈ listeners, ∃ number, listener = .outside number) :
    ∃ told, Logs ⟨engine.entry, .nothing⟩ told engine
      (tellAll tell changed listeners).1 := by
  have sameFrame := (telling.entry_frame_tellAll listeners changed).2
  obtain ⟨told, log, each⟩ := telling.log_tellAll about listeners changed
  have started := (congrArg Frame.started sameFrame).trans sameStarted
  have disposed := (congrArg Frame.disposed sameFrame).trans sameDisposed
  refine ⟨told, ?_, fun notice member => ?_, fun silent => ?_⟩
  · rw [opening_of_eq started, closing_of_eq disposed, log, sameLog]
    simp [Deed.reports]
  · rw [each notice member]
    exact isSignal
  · rw [tellAll_outside telling.ignored (outside silent)] at log
    exact List.self_eq_append_right.mp log

variable {ratesAlone : RatesCell} {baseAlone : BaseCell}

private theorem outside_of_silent {α : Type}
    {alone cell : Cell α EngineListener TaskId} {listening : Bool}
    (link : Cell.Linked listening alone cell) (silent : listening = false) :
    ∀ listener ∈ cell.listeners, ∃ number, listener = .outside number := by
  rw [link.unlinked silent]
  exact link.outside

theorem logs_setRates (link : engine.Linked ratesAlone baseAlone)
    (rates : Snapshot) :
    ∃ told, Logs ⟨engine.entry, .nothing⟩ told engine
      (engine.setRates (some rates)).1 := by
  cases changed : engine.rates.change? (some rates) with
  | none =>
      rw [setRates_of_unchanged changed]
      exact ⟨[], .of_deed rfl rfl (List.append_nil _).symm⟩
  | some cell =>
      have sameLog : (engine.receiving rates).log = engine.log := rfl
      rw [setRates_of_changed changed]
      exact (telling_rates rates).logs_tellAll (.inl rfl)
        (fun _ => ⟨_, rfl, rfl⟩) sameLog rfl rfl (outside_of_silent link.1)

theorem logs_setBase (link : engine.Linked ratesAlone baseAlone)
    (base : Text) :
    ∃ told, Logs ⟨engine.entry, .nothing⟩ told engine
      (engine.setBase (some base)).1 := by
  cases changed : engine.base.change? (some base) with
  | none =>
      rw [setBase_of_unchanged changed]
      exact ⟨[], .of_deed rfl rfl (List.append_nil _).symm⟩
  | some cell =>
      have sameLog : (engine.rebased base).log = engine.log := rfl
      rw [setBase_of_changed changed]
      exact (telling_base base).logs_tellAll (.inr rfl)
        (fun _ => ⟨_, rfl, rfl⟩) sameLog rfl rfl (outside_of_silent link.2)

theorem disposed_dispose (engine : Engine) :
    engine.dispose.disposed = true := by
  unfold dispose
  split
  case isTrue disposed =>
    exact disposed
  · rfl

theorem log_dispose (undisposed : engine.disposed = false) :
    engine.dispose.log = engine.log ++ [.disposal] := by
  unfold dispose
  rw [if_neg (by simp [undisposed])]
  exact log_notice _ _

theorem logs_dispose (engine : Engine) :
    Logs ⟨engine.entry, .nothing⟩ [] engine engine.dispose := by
  cases disposed : engine.disposed with
  | true =>
      rw [dispose_of_disposed disposed]
      exact .of_deed rfl rfl (List.append_nil _).symm
  | false =>
      have sameStarted : engine.dispose.started = engine.started := by
        unfold dispose
        split <;> rfl
      refine ⟨?_, nofun, fun _ => rfl⟩
      rw [opening_of_eq sameStarted, closing,
        if_pos ⟨disposed, disposed_dispose engine⟩, log_dispose disposed]
      simp [Deed.reports]

theorem logs_beginNext (engine : Engine) (number : TaskId) :
    Logs ⟨engine.entry, engine.deed number .beginNext⟩ [] engine
      engine.beginNext := by
  unfold beginNext deed
  cases engine.submissions with
  | nil =>
      exact .of_deed rfl rfl (List.append_nil _).symm
  | cons submission rest =>
      have begins :=
        (logs_begin { engine with submissions := rest } submission).log
      refine ⟨?_, nofun, fun _ => rfl⟩
      unfold opening at begins ⊢
      rw [start_failure_take] at begins
      exact begins

theorem logs_complete (engine : Engine) (conversion : PendingConversion) :
    Logs ⟨engine.entry, conversion.ending⟩ [] engine
      (engine.complete conversion) := by
  have same : (engine.complete conversion).started = engine.started ∧
      (engine.complete conversion).disposed = engine.disposed := by
    rcases frame_complete engine conversion with ⟨same, _⟩ | ⟨_, dropped⟩
    · rw [same]
      exact ⟨rfl, rfl⟩
    · exact ⟨congrArg Frame.started dropped,
        congrArg Frame.disposed dropped⟩
  exact .of_deed same.1 same.2 (log_complete engine conversion)

/-- Every action logs the start that it makes, what signals tell in it, the deed
that it does, and the disposal that it makes. -/
theorem logs_perform (link : engine.Linked ratesAlone baseAlone)
    (number : TaskId) (action : Action) :
    ∃ told, Logs ⟨engine.entry, engine.deed number action⟩ told engine
      (engine.perform number action) := by
  have unlogged : ∀ {next : Engine}, next.started = engine.started →
      next.disposed = engine.disposed → next.log = engine.log →
        ∃ told, Logs ⟨engine.entry, .nothing⟩ told engine next := by
    intro next started disposed log
    exact ⟨[], .of_deed started disposed
      (log.trans (List.append_nil _).symm)⟩
  cases action with
  | start =>
      exact ⟨[], logs_start engine⟩
  | dispose =>
      exact ⟨[], logs_dispose engine⟩
  | handle event =>
      exact ⟨[], logs_begin engine _⟩
  | beginNext =>
      exact ⟨[], logs_beginNext engine number⟩
  | look task =>
      rcases perform_look_cases engine number task with
        ⟨_, same⟩ | ⟨conversion, _, _, looks⟩
      · rw [same]
        exact unlogged rfl rfl rfl
      · rw [looks]
        unfold look
        split <;> exact unlogged rfl rfl rfl
  | complete task =>
      rw [perform, deed]
      cases engine.conversionOf? task with
      | none =>
          exact unlogged rfl rfl rfl
      | some conversion =>
          exact ⟨[], logs_complete engine conversion⟩
  | setRates rates =>
      exact logs_setRates link rates
  | setBase base =>
      exact logs_setBase link base
  | _ =>
      exact unlogged rfl rfl rfl

end Engine

end CurrencyPad
