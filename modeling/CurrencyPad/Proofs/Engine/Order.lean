import CurrencyPad.Proofs.Engine.Desk
import CurrencyPad.Proofs.Engine.Run

/-!
# Order among the actions

The desk of an engine is what matters of it to the order of events, and every
action is one happening on the desk.  In an orderly engine tasks have numbers of
their own, events start it without failure, and whoever waits for rates is
waited for.
-/

namespace CurrencyPad

/-- Actions that neither cancel tasks nor stop the engine, and bring in nobody
who refuses displays. -/
def Action.isPeaceful : Action → Bool
  | .dispose => false
  | .cancel _ => false
  | .refuse => false
  | _ => true

/-- Peaceful actions that let every event wait for its turn. -/
def Action.isOrdinary : Action → Bool
  | .handle _ => false
  | action => action.isPeaceful

theorem Action.isOrdinary_of_isPeaceful {action : Action}
    (peaceful : action.isPeaceful = true)
    (waits : ∀ event, action ≠ .handle event) :
    action.isOrdinary = true := by
  cases action with
  | handle event =>
      exact absurd rfl (waits event)
  | _ =>
      exact peaceful

/-- A conversion that is pending, and is waited for if it waits. -/
def PendingConversion.Sound
    (waiters : List TaskId) (conversion : PendingConversion) : Prop :=
  match conversion.read with
  | .requested => True
  | .waiting => conversion.task ∈ waiters
  | .received rates => rates.isSome = true
  | .abandoned => False
  | .cancelled => False

/-- The happening in which a conversion looks for rates, if it has not done so
yet. -/
def PendingConversion.lookout (conversion : PendingConversion) : Happening :=
  match conversion.read with
  | .requested => .looked conversion.task
  | _ => .nothing

/-- The happening by which a conversion ends, if it has received rates. -/
def PendingConversion.ending (conversion : PendingConversion) : Happening :=
  match conversion.read with
  | .received (some rates) => .converted conversion.capture rates
  | _ => .nothing

namespace Engine

def desk (engine : Engine) : Desk where
  entry := engine.entry
  rates := engine.rates.value.join
  queue :=
    engine.submissions.map fun submission =>
      (submission.task, submission.event)
  conversions := engine.conversions

def turn (engine : Engine) (task : TaskId) : Event → Happening
  | .currency code =>
      match engine.entry.amountFor? engine.config code with
      | none => .selected task code
      | some amount =>
          .captured ⟨task, engine.entry.currency, code, amount⟩
  | event => .applied task event

/-- What an action is on the desk. -/
def happening (engine : Engine) (number : TaskId) : Action → Happening
  | .submit event => .submitted number event
  | .beginNext =>
      match engine.submissions with
      | [] => .nothing
      | submission :: _ => engine.turn submission.task submission.event
  | .look task => (engine.conversionOf? task).elim .nothing (·.lookout)
  | .complete task => (engine.conversionOf? task).elim .nothing (·.ending)
  | .setRates rates =>
      match engine.rates.change? (some rates) with
      | none => .nothing
      | some _ => .told rates
  | _ => .nothing

/-- What the actions of a run are on the desk. -/
def happenings (engine : Engine) (number : TaskId) :
    List Action → List Happening
  | [] => []
  | action :: rest =>
      engine.happening number action ::
        (engine.perform number action).happenings (number + 1) rest

theorem desk_of_frame_eq {before after : Engine}
    (sameFrame : after.frame = before.frame) :
    after.desk = { before.desk with entry := after.entry } := by
  have made : ∀ engine : Engine,
      engine.desk =
        ⟨engine.entry, engine.frame.rates.value.join,
          engine.frame.submissions.map fun submission =>
            (submission.task, submission.event),
          engine.frame.conversions⟩ :=
    fun _ => rfl
  rw [made, made, sameFrame]

/-- What keeps the actions of a run in order. -/
structure Orderly (number : TaskId) (engine : Engine) : Prop where
  undisposed : engine.disposed = false
  startable : engine.started = true ∨ engine.refusing = 0
  distinct : engine.tasks.Nodup
  earlier : ∀ task ∈ engine.tasks, task < number
  uncancelled :
    ∀ submission ∈ engine.submissions, submission.cancelled = false
  known : engine.rates.value ≠ some none
  sound :
    ∀ conversion ∈ engine.conversions,
      conversion.Sound engine.rates.waiters

theorem new_orderly (config : Config) (rates : Option Snapshot)
    (base : Option (Option Text)) :
    (new config (rates.map some) base).Orderly 0 := by
  refine ⟨rfl, .inr rfl, List.nodup_nil, nofun, nofun, ?_, nofun⟩
  cases rates <;> nofun

/-- The parts of an engine on which its order depends. -/
def ledger (engine : Engine) : Bool × Bool × Nat ×
    Option (Option Snapshot) × List TaskId × List Submission ×
    List PendingConversion :=
  (engine.disposed, engine.started, engine.refusing, engine.rates.value,
    engine.rates.waiters, engine.submissions, engine.conversions)

theorem Orderly.of_ledger_eq {number : TaskId} {before after : Engine}
    (orderly : before.Orderly number)
    (sameLedger : after.ledger = before.ledger) :
    after.Orderly number := by
  simp only [ledger, Prod.mk.injEq] at sameLedger
  obtain ⟨sameDisposed, sameStarted, sameRefusing, sameRates, sameWaiters,
    sameSubmissions, sameConversions⟩ := sameLedger
  have sameTasks : after.tasks = before.tasks := by
    rw [tasks, tasks, sameSubmissions, sameConversions]
  refine ⟨?_, ?_, ?_, ?_, ?_, ?_, ?_⟩
  · rw [sameDisposed, orderly.undisposed]
  · rw [sameStarted, sameRefusing]
    exact orderly.startable
  · rw [sameTasks]
    exact orderly.distinct
  · rw [sameTasks]
    exact orderly.earlier
  · rw [sameSubmissions]
    exact orderly.uncancelled
  · rw [sameRates]
    exact orderly.known
  · rw [sameConversions, sameWaiters]
    exact orderly.sound

theorem Orderly.of_frame_eq {number : TaskId} {before after : Engine}
    (orderly : before.Orderly number)
    (sameFrame : after.frame = before.frame) :
    after.Orderly number := by
  have made : ∀ engine : Engine,
      engine.ledger =
        (engine.frame.disposed, engine.frame.started,
          engine.frame.refusing, engine.frame.rates.value,
          engine.frame.rates.waiters, engine.frame.submissions,
          engine.frame.conversions) :=
    fun _ => rfl
  refine orderly.of_ledger_eq ?_
  rw [made, made, sameFrame]

theorem Orderly.later {number : TaskId} {engine : Engine}
    (orderly : engine.Orderly number) :
    engine.Orderly (number + 1) :=
  ⟨orderly.undisposed, orderly.startable, orderly.distinct,
    fun task member => Nat.lt_succ_of_lt (orderly.earlier task member),
    orderly.uncancelled, orderly.known, orderly.sound⟩

private theorem release_of_accepting {engine : Engine}
    (accepting : engine.refusing = 0) :
    engine.release.2 = none := by
  unfold release
  split
  · rw [failure_publish, if_pos (.inr accepting)]
  · rfl

/-- The start of an orderly engine succeeds, and its desk is left as it was. -/
theorem Orderly.start {number : TaskId} {engine : Engine}
    (orderly : engine.Orderly number) :
    engine.start.2 = none ∧
      engine.start.1.Orderly number ∧
      engine.start.1.desk = engine.desk ∧
      engine.start.1.config = engine.config := by
  by_cases started : engine.started = true
  · rw [start_of_started orderly.undisposed started]
    exact ⟨rfl, orderly, rfl, rfl⟩
  · have fresh : engine.started = false := by
      simpa using started
    have accepting : engine.refusing = 0 :=
      orderly.startable.resolve_left started
    have sameFrame :=
      frame_start_of_fresh orderly.undisposed fresh
    have connected : engine.connected.Orderly number :=
      ⟨orderly.undisposed, .inl rfl, orderly.distinct, orderly.earlier,
        orderly.uncancelled, orderly.known, orderly.sound⟩
    refine ⟨?_, connected.of_frame_eq sameFrame, ?_,
      congrArg Frame.config sameFrame⟩
    · have released : engine.connected.release.2 = none :=
        release_of_accepting accepting
      have starts :
          engine.connected.release =
            (engine.connected.release.1, none) := by
        rw [← released]
      rw [start_of_fresh orderly.undisposed fresh, starts]
      rfl
    · rw [desk_of_frame_eq sameFrame, entry_start]
      rfl

section Turn

variable {engine ready : Engine} {task : TaskId} {event : Event}
  {rest : List (TaskId × Event)}

private theorem step_dispatch
    (first : engine.desk.queue = (task, event) :: rest)
    (sameDesk : ready.desk = { engine.desk with queue := rest })
    (sameConfig : ready.config = engine.config)
    (noChoice : ∀ code, event ≠ .currency code) :
    Desk.Step engine.config engine.desk (.applied task event)
      (finishWith task (ready.dispatch event)).desk := by
  have sameEntry : ready.entry = engine.entry :=
    congrArg Desk.entry sameDesk
  have after :
      (finishWith task (ready.dispatch event)).desk =
        { engine.desk with
          entry := engine.desk.entry.apply engine.config event
          queue := rest } := by
    change (ready.dispatch event).1.desk = _
    rw [desk_of_frame_eq (frame_dispatch ready event), entry_dispatch,
      sameDesk, sameEntry, sameConfig]
    rfl
  rw [after]
  exact .apply engine.desk first noChoice

/-- A choice of currency is a step of its own where there is nothing to
convert. -/
private theorem step_beginCurrency {code : Text}
    (first : engine.desk.queue = (task, .currency code) :: rest)
    (sameDesk : ready.desk = { engine.desk with queue := rest })
    (sameConfig : ready.config = engine.config) :
    Desk.Step engine.config engine.desk (engine.turn task (.currency code))
      (ready.beginCurrency task code).desk := by
  have sameEntry : ready.entry = engine.entry :=
    congrArg Desk.entry sameDesk
  cases entered : engine.entry.amountFor? engine.config code with
  | none =>
      have turned :
          engine.turn task (.currency code) = .selected task code := by
        simp only [turn, entered]
      have after :
          (ready.beginCurrency task code).desk =
            { engine.desk with
              entry := engine.desk.entry.select code none
              queue := rest } := by
        rw [← sameEntry, ← sameConfig] at entered
        rw [beginCurrency_of_none entered]
        change (ready.applyCurrency code none).1.desk = _
        rw [desk_of_frame_eq (frame_applyCurrency ready code none),
          entry_applyCurrency, sameDesk, sameEntry]
        rfl
      rw [turned, after]
      exact .select engine.desk first entered
  | some amount =>
      have turned :
          engine.turn task (.currency code) =
            .captured ⟨task, engine.entry.currency, code, amount⟩ := by
        simp only [turn, entered]
      have after :
          (ready.beginCurrency task code).desk =
            { engine.desk with
              queue := rest
              conversions :=
                engine.desk.conversions ++
                  [⟨task, engine.desk.entry.currency, code, amount,
                    .requested⟩] } := by
        rw [← sameEntry, ← sameConfig] at entered
        rw [beginCurrency_of_some entered]
        change
          ({ ready.desk with
            conversions :=
              ready.desk.conversions ++
                [⟨task, ready.entry.currency, code, amount,
                  .requested⟩] } : Desk) = _
        rw [sameDesk, sameEntry]
        rfl
      rw [turned, after]
      exact .capture engine.desk first entered

/-- Where an event has its turn, the desk makes the step of the event. -/
theorem step_beginEvent
    (first : engine.desk.queue = (task, event) :: rest)
    (sameDesk : ready.desk = { engine.desk with queue := rest })
    (sameConfig : ready.config = engine.config) :
    Desk.Step engine.config engine.desk (engine.turn task event)
      (ready.beginEvent task event).desk := by
  cases event with
  | currency code =>
      exact step_beginCurrency first sameDesk sameConfig
  | _ =>
      exact step_dispatch first sameDesk sameConfig nofun

end Turn

theorem Orderly.beginEvent {number : TaskId} {engine : Engine}
    (orderly : engine.Orderly number) {task : TaskId}
    (unused : task ∉ engine.tasks) (earlier : task < number)
    (event : Event) :
    (engine.beginEvent task event).Orderly number := by
  have dispatched :
      (finishWith task (engine.dispatch event)).Orderly number := by
    have before := orderly.of_frame_eq (frame_dispatch engine event)
    exact before.of_ledger_eq rfl
  cases event with
  | currency code =>
      change (engine.beginCurrency task code).Orderly number
      cases entered : engine.entry.amountFor? engine.config code with
      | none =>
          rw [beginCurrency_of_none entered]
          have applied :=
            orderly.of_frame_eq (frame_applyCurrency engine code none)
          exact applied.of_ledger_eq rfl
      | some amount =>
          rw [beginCurrency_of_some entered]
          have moved :
              ({ engine with
                  conversions :=
                    engine.conversions ++
                      [⟨task, engine.currency, code, amount,
                        .requested⟩] } : Engine).tasks.Perm
                (task :: engine.tasks) :=
            tasks_perm_of_added rfl rfl rfl
          refine ⟨orderly.undisposed, orderly.startable, ?_, ?_,
            orderly.uncancelled, orderly.known, ?_⟩
          · exact moved.nodup_iff.mpr
              (List.nodup_cons.mpr ⟨unused, orderly.distinct⟩)
          · intro other member
            rcases List.mem_cons.mp (moved.mem_iff.mp member) with
              rfl | before
            · exact earlier
            · exact orderly.earlier other before
          · intro conversion member
            rcases List.mem_append.mp member with before | new
            · exact orderly.sound conversion before
            · rw [List.mem_singleton.mp new]
              trivial
  | _ =>
      exact dispatched

/-- Where a task has its turn, an orderly engine begins its event with the desk
as it was, and stays in order. -/
theorem Orderly.begin {number : TaskId} {engine : Engine}
    (orderly : engine.Orderly number) {submission : Submission}
    (uncancelled : submission.cancelled = false)
    (unused : submission.task ∉ engine.tasks)
    (earlier : submission.task < number) :
    (∃ ready : Engine,
      engine.begin submission =
          ready.beginEvent submission.task submission.event ∧
        ready.desk = engine.desk ∧ ready.config = engine.config) ∧
      (engine.begin submission).Orderly number := by
  obtain ⟨succeeded, started, startedDesk, startedConfig⟩ := orderly.start
  have starts : engine.start = (engine.start.1, none) := by
    rw [← succeeded]
  have begins := begin_of_start_eq uncancelled starts
  have unusedStill : submission.task ∉ engine.start.1.tasks := by
    unfold tasks
    rw [submissions_start, conversions_start]
    exact unused
  refine ⟨⟨engine.start.1, begins, startedDesk, startedConfig⟩, ?_⟩
  rw [begins]
  exact started.beginEvent unusedStill earlier submission.event

theorem Orderly.beginNext {number : TaskId} {engine : Engine}
    (orderly : engine.Orderly number) :
    Desk.Step engine.config engine.desk
        (engine.happening number .beginNext) engine.beginNext.desk ∧
      engine.beginNext.Orderly number := by
  unfold happening Engine.beginNext
  cases waiting : engine.submissions with
  | nil =>
      exact ⟨.nothing engine.desk, orderly⟩
  | cons submission rest =>
      dsimp only
      have distinct := orderly.distinct
      have earlier := orderly.earlier
      have uncancelled := orderly.uncancelled
      unfold tasks at distinct earlier
      rw [waiting] at distinct earlier uncancelled
      rw [List.map_cons, List.cons_append, List.nodup_cons] at distinct
      have taken :
          ({ engine with submissions := rest } : Engine).Orderly number :=
        ⟨orderly.undisposed, orderly.startable, distinct.2,
          fun task member => earlier task (List.mem_cons_of_mem _ member),
          fun other member =>
            uncancelled other (List.mem_cons_of_mem _ member),
          orderly.known, orderly.sound⟩
      have first :
          engine.desk.queue =
            (submission.task, submission.event) ::
              rest.map fun submission =>
                (submission.task, submission.event) := by
        unfold desk
        rw [waiting]
        rfl
      obtain ⟨⟨ready, begins, readyDesk, readyConfig⟩, ordered⟩ :=
        taken.begin (uncancelled submission List.mem_cons_self) distinct.1
          (earlier submission.task List.mem_cons_self)
      refine ⟨?_, ordered⟩
      rw [begins]
      exact step_beginEvent first readyDesk readyConfig

/-- An event that has its turn at once leaves the engine in order. -/
theorem Orderly.handle {number : TaskId} {engine : Engine}
    (orderly : engine.Orderly number) (event : Event) :
    (engine.begin ⟨number, event, false⟩).Orderly (number + 1) := by
  have unused : number ∉ engine.tasks :=
    fun member => Nat.lt_irrefl number (orderly.earlier number member)
  exact (orderly.later.begin rfl unused (Nat.lt_succ_self number)).2

end Engine

end CurrencyPad
