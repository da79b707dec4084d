import CurrencyPad.Proofs.Engine.Effect
import CurrencyPad.Proofs.Engine.Order

/-!
# Histories

The history of a run lists what was done to the entry, action by action, each
with the entry to which it was done.  It is known for every run: tasks may be
cancelled, listeners may refuse displays, and the engine may be disposed.  The
entry of an engine is what its history makes of a blank one.
-/

namespace CurrencyPad

/-- What was done to an entry, and the entry to which it was done. -/
structure Deed where
  entry : Entry
  happening : Happening

namespace Engine

/-- What the turn of a task does.  A task that is cancelled or finds no running
engine does nothing. -/
def turnOf (engine : Engine) (submission : Submission) : Happening :=
  if submission.cancelled || engine.start.2.isSome then .nothing
  else engine.turn submission.task submission.event

def deed (engine : Engine) (number : TaskId) : Action → Happening
  | .handle event => engine.turnOf ⟨number, event, false⟩
  | .beginNext =>
      match engine.submissions with
      | [] => .nothing
      | submission :: rest =>
          ({ engine with submissions := rest } : Engine).turnOf submission
  | .complete task => (engine.conversionOf? task).elim .nothing (·.ending)
  | _ => .nothing

/-- What the actions of a run do, the first of them first. -/
def history (engine : Engine) (number : TaskId) :
    List Action → List Deed
  | [] => []
  | action :: rest =>
      ⟨engine.entry, engine.deed number action⟩ ::
        (engine.perform number action).history (number + 1) rest

/-- A task that has its turn does nothing but end, or an engine that was started
without failure begins its event. -/
theorem begin_cases (engine : Engine) (submission : Submission) :
    (engine.turnOf submission = .nothing ∧
        ∃ ready outcome,
          (ready = engine ∨ ready = engine.start.1) ∧
            engine.begin submission =
              ready.finish submission.task outcome) ∨
      submission.cancelled = false ∧ engine.start.2 = none ∧
        engine.turnOf submission =
          engine.start.1.turn submission.task submission.event ∧
        engine.begin submission =
          engine.start.1.beginEvent submission.task submission.event := by
  have sameEntry := entry_start engine
  have sameConfig : engine.start.1.config = engine.config :=
    config_perform engine 0 .start
  cases cancelled : submission.cancelled with
  | true =>
      refine .inl ⟨?_, engine, .cancelled, .inl rfl,
        begin_of_cancelled cancelled⟩
      simp [turnOf, cancelled]
  | false =>
      unfold begin turnOf
      rw [cancelled]
      generalize engine.start = step at sameEntry sameConfig
      obtain ⟨ready, failure⟩ := step
      cases failure with
      | some failure =>
          exact .inl ⟨rfl, ready, .failed failure, .inr rfl, rfl⟩
      | none =>
          refine .inr ⟨rfl, rfl, ?_, rfl⟩
          change engine.turn submission.task submission.event =
            ready.turn submission.task submission.event
          unfold turn
          rw [sameEntry, sameConfig]

theorem entry_beginEvent (engine : Engine) (task : TaskId)
    (event : Event) :
    (engine.beginEvent task event).entry =
      (engine.turn task event).effect engine.config engine.entry := by
  cases event with
  | currency code =>
      change (engine.beginCurrency task code).entry = _
      cases entered : engine.entry.amountFor? engine.config code with
      | none =>
          rw [beginCurrency_of_none entered, entry_finishWith,
            entry_applyCurrency]
          simp only [turn, entered]
          rfl
      | some amount =>
          rw [beginCurrency_of_some entered]
          simp only [turn, entered]
          rfl
  | _ =>
      exact entry_dispatch engine _

theorem entry_begin (engine : Engine) (submission : Submission) :
    (engine.begin submission).entry =
      (engine.turnOf submission).effect engine.config engine.entry := by
  rcases engine.begin_cases submission with
    ⟨nothing, ready, outcome, isReady, ends⟩ | ⟨_, _, turns, begins⟩
  · rw [nothing, ends]
    rcases isReady with rfl | rfl
    · rfl
    · exact entry_start engine
  · have turned := engine.start.1.entry_beginEvent submission.task
      submission.event
    have sameConfig : engine.start.1.config = engine.config :=
      config_perform engine 0 .start
    rw [entry_start, sameConfig] at turned
    rw [turns, begins]
    exact turned

theorem entry_complete (engine : Engine) (conversion : PendingConversion) :
    (engine.complete conversion).entry =
      conversion.ending.effect engine.config engine.entry := by
  unfold complete PendingConversion.ending
  cases conversion.read with
  | received rates =>
      cases rates with
      | some rates =>
          rw [entry_finishWith, entry_convert]
          rfl
      | none =>
          rfl
  | _ =>
      rfl

/-- An action makes of the entry what it does to it. -/
theorem entry_perform (engine : Engine) (number : TaskId)
    (action : Action) :
    (engine.perform number action).entry =
      (engine.deed number action).effect engine.config engine.entry := by
  cases action with
  | start =>
      exact entry_start engine
  | dispose =>
      change engine.dispose.entry = engine.entry
      unfold dispose
      split <;> rfl
  | handle event =>
      exact entry_begin engine _
  | beginNext =>
      change engine.beginNext.entry = _
      unfold beginNext deed
      cases engine.submissions with
      | nil =>
          rfl
      | cons submission rest =>
          exact entry_begin _ submission
  | look task =>
      rcases perform_look_cases engine number task with
        ⟨_, same⟩ | ⟨conversion, _, _, looks⟩
      · rw [same]
        rfl
      · rw [looks]
        exact entry_look engine conversion
  | complete task =>
      rw [perform, deed]
      cases engine.conversionOf? task with
      | none =>
          rfl
      | some conversion =>
          exact entry_complete engine conversion
  | setRates rates =>
      exact entry_setRates engine rates
  | setBase base =>
      exact entry_setBase engine base
  | _ =>
      rfl

/-- What holds of no deeds and a blank entry, and goes on to hold with every
further deed, holds of the history of a run and of its last entry. -/
theorem history_induction {config : Config}
    {motive : List Deed → Entry → Prop} (blank : motive [] .blank)
    (kept : ∀ deeds entry happening, motive deeds entry →
      motive (deeds ++ [⟨entry, happening⟩])
        (happening.effect config entry))
    (rates : Option (Option Snapshot)) (base : Option (Option Text))
    (actions : List Action) :
    motive ((new config rates base).history 0 actions)
      ((new config rates base).runFrom 0 actions).entry := by
  -- The rest of a run begins at another engine, so its history is apart from
  -- the deeds before it.
  suffices general :
      ∀ (engine : Engine) (number : TaskId) (deeds : List Deed),
        engine.config = config → motive deeds engine.entry →
          motive (deeds ++ engine.history number actions)
            (engine.runFrom number actions).entry from
    general _ 0 [] rfl blank
  induction actions with
  | nil =>
      intro engine number deeds _ holds
      rw [history, List.append_nil]
      exact holds
  | cons action rest inductionHypothesis =>
      intro engine number deeds configured holds
      have next := kept deeds engine.entry (engine.deed number action) holds
      rw [← configured, ← entry_perform] at next
      have later := inductionHypothesis (engine.perform number action)
        (number + 1) _ ((config_perform engine number action).trans
          configured) next
      rw [List.append_assoc] at later
      exact later

end Engine

end CurrencyPad
