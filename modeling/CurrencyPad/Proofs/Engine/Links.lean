import CurrencyPad.Proofs.Engine.Effect

/-!
# Links to the signals

From its start until it is disposed the engine has two listeners with each of
its signals, one for the log and one for the display.  Apart from these the
signals are at every point of a run what they would be without the engine.
-/

namespace CurrencyPad

/-- What an action makes of the signal of rates where there is no engine. -/
def Action.onRates (cell : RatesCell) : Action → RatesCell
  | .setRates rates => (cell.change? (some rates)).getD cell
  | .watchRates number => cell.register (.outside number)
  | .unwatchRates number => cell.unregister (.outside number)
  | _ => cell

/-- What an action makes of the signal of the base currency where there is no
engine. -/
def Action.onBase (cell : BaseCell) : Action → BaseCell
  | .setBase base => (cell.change? (some base)).getD cell
  | .watchBase number => cell.register (.outside number)
  | .unwatchBase number => cell.unregister (.outside number)
  | _ => cell

namespace Cell

variable {α : Type} {listening : Bool}
  {alone cell : Cell α EngineListener TaskId}

/-- A cell differs from the one it would be without the engine by the listeners
of the engine, if the engine listens, and by those who wait. -/
structure Linked (listening : Bool)
    (alone cell : Cell α EngineListener TaskId) : Prop where
  outside :
    ∀ listener ∈ alone.listeners, ∃ number, listener = .outside number
  value : cell.value = alone.value
  unlinked : listening = false → cell.listeners = alone.listeners
  linked :
    listening = true →
      .log ∈ cell.listeners ∧ .display ∈ cell.listeners ∧
        (cell.listeners.erase .log).erase .display = alone.listeners

namespace Linked

theorem of_eq {other : Cell α EngineListener TaskId}
    (link : Linked listening alone cell)
    (sameValue : other.value = cell.value)
    (sameListeners : other.listeners = cell.listeners) :
    Linked listening alone other := by
  refine ⟨link.outside, sameValue.trans link.value, ?_, ?_⟩
  · intro silent
    rw [sameListeners]
    exact link.unlinked silent
  · intro listens
    rw [sameListeners]
    exact link.linked listens

private theorem not_mem (link : Linked listening alone cell)
    {listener : EngineListener}
    (own : ∀ number, listener ≠ .outside number) :
    listener ∉ alone.listeners := by
  intro member
  obtain ⟨number, same⟩ := link.outside listener member
  exact own number same

/-- The engine begins to listen. -/
theorem connect (link : Linked false alone cell) :
    Linked true alone ((cell.register .log).register .display) := by
  have noLog : .log ∉ cell.listeners := by
    rw [link.unlinked rfl]
    exact link.not_mem fun _ => nofun
  have noDisplay : .display ∉ cell.listeners := by
    rw [link.unlinked rfl]
    exact link.not_mem fun _ => nofun
  refine ⟨link.outside, link.value, nofun, fun _ => ⟨?_, ?_, ?_⟩⟩
  · simp [register]
  · simp [register]
  · simp only [register, List.append_assoc, List.cons_append,
      List.nil_append]
    rw [List.erase_append_right _ noLog, List.erase_cons_head,
      List.erase_append_right _ noDisplay, List.erase_cons_head,
      List.append_nil]
    exact link.unlinked rfl

/-- The engine stops listening. -/
theorem disconnect (link : Linked listening alone cell) :
    Linked false alone ((cell.unregister .log).unregister .display) := by
  refine ⟨link.outside, link.value, fun _ => ?_, nofun⟩
  change (cell.listeners.erase .log).erase .display = alone.listeners
  cases listening with
  | false =>
      have noLog : .log ∉ alone.listeners := link.not_mem fun _ => nofun
      have noDisplay : .display ∉ alone.listeners :=
        link.not_mem fun _ => nofun
      rw [link.unlinked rfl, List.erase_of_not_mem noLog,
        List.erase_of_not_mem noDisplay]
  | true =>
      exact (link.linked rfl).2.2

theorem watch (link : Linked listening alone cell) (number : Nat) :
    Linked listening (alone.register (.outside number))
      (cell.register (.outside number)) := by
  refine ⟨?_, link.value, ?_, ?_⟩
  · intro listener member
    rcases List.mem_append.mp member with old | new
    · exact link.outside listener old
    · exact ⟨number, List.mem_singleton.mp new⟩
  · intro silent
    simp only [register, link.unlinked silent]
  · intro listens
    obtain ⟨log, display, others⟩ := link.linked listens
    have different : EngineListener.display ≠ .log := nofun
    have displayStill : .display ∈ cell.listeners.erase .log :=
      (List.mem_erase_of_ne different).mpr display
    refine ⟨List.mem_append_left _ log, List.mem_append_left _ display, ?_⟩
    simp only [register]
    rw [List.erase_append_left _ log, List.erase_append_left _ displayStill,
      others]

theorem unwatch (link : Linked listening alone cell) (number : Nat) :
    Linked listening (alone.unregister (.outside number))
      (cell.unregister (.outside number)) := by
  refine ⟨?_, link.value, ?_, ?_⟩
  · intro listener member
    exact link.outside listener (List.mem_of_mem_erase member)
  · intro silent
    simp only [unregister, link.unlinked silent]
  · intro listens
    obtain ⟨log, display, others⟩ := link.linked listens
    have otherThanLog : EngineListener.log ≠ .outside number := nofun
    have otherThanDisplay : EngineListener.display ≠ .outside number := nofun
    refine ⟨(List.mem_erase_of_ne otherThanLog).mpr log,
      (List.mem_erase_of_ne otherThanDisplay).mpr display, ?_⟩
    simp only [unregister]
    rw [List.erase_comm (EngineListener.outside number) .log,
      List.erase_comm (EngineListener.outside number) .display, others]

/-- Both cells take a value or neither of them does. -/
theorem change [BEq α] (link : Linked listening alone cell) {value : α}
    {changed : Cell α EngineListener TaskId}
    (changes : cell.change? value = some changed) :
    Linked listening ((alone.change? value).getD alone) changed := by
  have new := eq_of_change?_eq_some changes
  have alike : alone.change? value =
      some { alone with value := some value, waiters := [] } := by
    unfold change? at changes ⊢
    rw [← link.value]
    split at changes
    · cases changes
    case isFalse differs =>
      rw [if_neg differs]
  rw [alike, new]
  exact ⟨link.outside, rfl, link.unlinked, link.linked⟩

theorem keep [BEq α] (link : Linked listening alone cell) {value : α}
    (unchanged : cell.change? value = none) :
    Linked listening ((alone.change? value).getD alone) cell := by
  have alike : alone.change? value = none := by
    unfold change? at unchanged ⊢
    rw [← link.value]
    split at unchanged
    case isTrue same =>
      rw [if_pos same]
    · cases unchanged
  rw [alike]
  exact link

end Linked

end Cell

namespace Engine

/-- Whether the engine has its listeners with the signals. -/
def listening (engine : Engine) : Bool :=
  engine.started && !engine.disposed

/-- Both signals of an engine are what they would be without it, apart from its
own listeners and those who wait. -/
def Linked (ratesAlone : RatesCell) (baseAlone : BaseCell)
    (engine : Engine) : Prop :=
  Cell.Linked engine.listening ratesAlone engine.rates ∧
    Cell.Linked engine.listening baseAlone engine.base

variable {ratesAlone : RatesCell} {baseAlone : BaseCell}

/-- The parts of an engine on which its links depend. -/
def links (engine : Engine) : Bool × Option (Option Snapshot) ×
    List EngineListener × Option (Option Text) × List EngineListener :=
  (engine.listening, engine.rates.value, engine.rates.listeners,
    engine.base.value, engine.base.listeners)

theorem Linked.of_links_eq {before after : Engine}
    (link : before.Linked ratesAlone baseAlone)
    (sameLinks : after.links = before.links) :
    after.Linked ratesAlone baseAlone := by
  simp only [links, Prod.mk.injEq] at sameLinks
  obtain ⟨sameListening, ratesValue, ratesListeners, baseValue,
    baseListeners⟩ := sameLinks
  unfold Linked
  rw [sameListening]
  exact ⟨link.1.of_eq ratesValue ratesListeners,
    link.2.of_eq baseValue baseListeners⟩

theorem links_of_frame_eq {before after : Engine}
    {conversions : List PendingConversion}
    {finished : List (TaskId × TaskOutcome)}
    (sameFrame :
      after.frame =
        { before.frame with
          conversions := conversions
          finished := finished }) :
    after.links = before.links := by
  have made : ∀ engine : Engine,
      engine.links =
        (engine.frame.started && !engine.frame.disposed,
          engine.frame.rates.value, engine.frame.rates.listeners,
          engine.frame.base.value, engine.frame.base.listeners) :=
    fun _ => rfl
  rw [made, made, sameFrame]

theorem Linked.connected {engine : Engine}
    (link : engine.Linked ratesAlone baseAlone) (fresh : engine.Fresh) :
    engine.connected.Linked ratesAlone baseAlone := by
  have silent : engine.listening = false := by
    simp [listening, fresh.2]
  have listens : engine.connected.listening = true := by
    have started : engine.connected.started = true := rfl
    have undisposed : engine.connected.disposed = false := fresh.1
    simp [listening, started, undisposed]
  unfold Linked at link ⊢
  rw [silent] at link
  rw [listens]
  exact ⟨link.1.connect, link.2.connect⟩

theorem Linked.dispose {engine : Engine}
    (link : engine.Linked ratesAlone baseAlone) :
    engine.dispose.Linked ratesAlone baseAlone := by
  by_cases disposed : engine.disposed = true
  · rw [dispose_of_disposed disposed]
    exact link
  · have silent : engine.dispose.listening = false := by
      simp [Engine.dispose, disposed, listening, notice]
    unfold Linked
    rw [silent]
    unfold Engine.dispose
    rw [if_neg disposed]
    exact ⟨link.1.disconnect, link.2.disconnect⟩

theorem Linked.begin {engine : Engine}
    (link : engine.Linked ratesAlone baseAlone) (submission : Submission) :
    (engine.begin submission).Linked ratesAlone baseAlone := by
  obtain ⟨ready, begun, finished, isReady, _, _, sameFrame⟩ :=
    frame_begin engine submission
  have sameLinks := links_of_frame_eq sameFrame
  rcases isReady with rfl | ⟨fresh, rfl⟩
  · exact link.of_links_eq sameLinks
  · exact (link.connected fresh).of_links_eq sameLinks

theorem Linked.start {engine : Engine}
    (link : engine.Linked ratesAlone baseAlone) :
    engine.start.1.Linked ratesAlone baseAlone := by
  rcases frame_start engine with sameFrame | ⟨fresh, sameFrame⟩
  · exact link.of_links_eq (links_of_frame_eq sameFrame)
  · exact (link.connected fresh).of_links_eq (links_of_frame_eq sameFrame)

theorem Linked.look {engine : Engine}
    (link : engine.Linked ratesAlone baseAlone)
    (conversion : PendingConversion) :
    (engine.look conversion).Linked ratesAlone baseAlone := by
  unfold Engine.look
  split
  · exact link.of_links_eq rfl
  · exact link.of_links_eq rfl
  · exact link

theorem Linked.complete {engine : Engine}
    (link : engine.Linked ratesAlone baseAlone)
    (conversion : PendingConversion) :
    (engine.complete conversion).Linked ratesAlone baseAlone := by
  rcases frame_complete engine conversion with
    ⟨same, _⟩ | ⟨finished, sameFrame⟩
  · rw [same]
    exact link
  · have dropped :
        (engine.dropConversion conversion.task).Linked ratesAlone baseAlone :=
      link.of_links_eq rfl
    exact dropped.of_links_eq (links_of_frame_eq sameFrame)

theorem Linked.setRates {engine : Engine}
    (link : engine.Linked ratesAlone baseAlone) (rates : Snapshot) :
    (engine.setRates (some rates)).1.Linked
      ((ratesAlone.change? (some rates)).getD ratesAlone) baseAlone := by
  rcases frame_setRates engine rates with
    ⟨unchanged, sameFrame⟩ | ⟨changes, sameFrame⟩
  · have kept :
        engine.Linked ((ratesAlone.change? (some rates)).getD ratesAlone)
          baseAlone :=
      ⟨link.1.keep unchanged, link.2⟩
    exact kept.of_links_eq (links_of_frame_eq sameFrame)
  · have changed :
        (engine.receiving rates).Linked
          ((ratesAlone.change? (some rates)).getD ratesAlone) baseAlone :=
      ⟨link.1.change changes, link.2⟩
    exact changed.of_links_eq (links_of_frame_eq sameFrame)

theorem Linked.setBase {engine : Engine}
    (link : engine.Linked ratesAlone baseAlone) (base : Text) :
    (engine.setBase (some base)).1.Linked ratesAlone
      ((baseAlone.change? (some base)).getD baseAlone) := by
  rcases frame_setBase engine base with
    ⟨unchanged, sameFrame⟩ | ⟨changes, sameFrame⟩
  · have kept :
        engine.Linked ratesAlone
          ((baseAlone.change? (some base)).getD baseAlone) :=
      ⟨link.1, link.2.keep unchanged⟩
    exact kept.of_links_eq (links_of_frame_eq sameFrame)
  · have changed :
        (engine.rebased base).Linked ratesAlone
          ((baseAlone.change? (some base)).getD baseAlone) :=
      ⟨link.1, link.2.change changes⟩
    exact changed.of_links_eq (links_of_frame_eq sameFrame)

/-- Whatever happens, the signals are changed as if the engine were not
there. -/
theorem Linked.perform {engine : Engine}
    (link : engine.Linked ratesAlone baseAlone)
    (number : TaskId) (action : Action) :
    (engine.perform number action).Linked (action.onRates ratesAlone)
      (action.onBase baseAlone) := by
  cases action with
  | start =>
      exact link.start
  | dispose =>
      exact link.dispose
  | handle event =>
      exact link.begin _
  | beginNext =>
      rcases perform_beginNext_cases engine number with
        same | ⟨submission, rest, _, begins⟩
      · rw [same]
        exact link
      · have taken :
            ({ engine with submissions := rest } : Engine).Linked
              ratesAlone baseAlone :=
          link.of_links_eq rfl
        rw [begins]
        exact taken.begin submission
  | look task =>
      rcases perform_look_cases engine number task with
        ⟨_, same⟩ | ⟨conversion, _, _, looks⟩
      · rw [same]
        exact link
      · rw [looks]
        exact link.look conversion
  | complete task =>
      rcases perform_complete_cases engine number task with
        ⟨_, same⟩ | ⟨conversion, _, _, ends⟩
      · rw [same]
        exact link
      · rw [ends]
        exact link.complete conversion
  | setRates rates =>
      exact link.setRates rates
  | setBase base =>
      exact link.setBase base
  | watchRates listener =>
      exact ⟨link.1.watch listener, link.2⟩
  | unwatchRates listener =>
      exact ⟨link.1.unwatch listener, link.2⟩
  | watchBase listener =>
      exact ⟨link.1, link.2.watch listener⟩
  | unwatchBase listener =>
      exact ⟨link.1, link.2.unwatch listener⟩
  | _ =>
      exact link.of_links_eq rfl

theorem Linked.runFrom
    (actions : List Action) {engine : Engine}
    (link : engine.Linked ratesAlone baseAlone) (number : TaskId) :
    (engine.runFrom number actions).Linked
      (actions.foldl Action.onRates ratesAlone)
      (actions.foldl Action.onBase baseAlone) := by
  induction actions generalizing engine number ratesAlone baseAlone with
  | nil =>
      exact link
  | cons action rest inductionHypothesis =>
      exact inductionHypothesis (link.perform number action) (number + 1)

theorem new_linked (config : Config) (rates : Option (Option Snapshot))
    (base : Option (Option Text)) :
    (new config rates base).Linked (.new rates) (.new base) :=
  ⟨⟨nofun, rfl, fun _ => rfl, nofun⟩, ⟨nofun, rfl, fun _ => rfl, nofun⟩⟩

end Engine

end CurrencyPad
