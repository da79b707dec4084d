import CurrencyPad.Proofs.Engine.Interleaving
import CurrencyPad.Proofs.Engine.Links
import CurrencyPad.Proofs.Engine.Reads

/-!
# Disposal and abandoned conversions

A disposed engine changes neither its entry nor its display any more, whatever
happens.  Its signals have the listeners that they would have without it.  A
conversion that is given up, because the engine is disposed or because its task
is cancelled, changes nothing either, and nothing is left of it once it ends.
-/

namespace CurrencyPad.Engine

/-- What an engine shows and has shown, and what it would show next. -/
def appearance (engine : Engine) : Entry × Option Display × List Display :=
  (engine.entry, engine.published, engine.displays)

variable {engine : Engine} {conversion : PendingConversion}

theorem complete_of_isGivenUp (engine : Engine)
    (givenUp : conversion.isGivenUp = true) :
    ∃ outcome,
      engine.complete conversion =
        (engine.dropConversion conversion.task).finish conversion.task
          outcome := by
  unfold complete
  unfold PendingConversion.isGivenUp at givenUp
  cases read : conversion.read with
  | abandoned =>
      exact ⟨.done, rfl⟩
  | cancelled =>
      exact ⟨.cancelled, rfl⟩
  | _ =>
      simp [read] at givenUp

theorem look_of_isGivenUp (engine : Engine)
    (givenUp : conversion.isGivenUp = true) :
    engine.look conversion = engine := by
  unfold look
  have looked :=
    PendingConversion.read_ne_requested_of_isGivenUp givenUp
  split
  case h_1 requested _ =>
    exact absurd requested looked
  case h_2 requested _ =>
    exact absurd requested looked
  · rfl

/-- What a conversion still does that is given up changes nothing. -/
theorem GivenUp.appearance_perform {number task : TaskId}
    (left : engine.GivenUp number task) {action : Action}
    (own : action ∈ [.look task, .complete task, .cancel task]) :
    (engine.perform number action).appearance = engine.appearance := by
  simp only [List.mem_cons, List.not_mem_nil, or_false] at own
  rcases own with rfl | rfl | rfl
  · rcases perform_look_cases engine number task with
      ⟨_, same⟩ | ⟨conversion, member, sameTask, looks⟩
    · rw [same]
    · rw [looks, look_of_isGivenUp engine
        (left.givenUp conversion member sameTask)]
  · rcases perform_complete_cases engine number task with
      ⟨_, same⟩ | ⟨conversion, member, sameTask, completes⟩
    · rw [same]
    · obtain ⟨outcome, ends⟩ := complete_of_isGivenUp engine
        (left.givenUp conversion member sameTask)
      rw [completes, ends]
      rfl
  · rfl

/-- Nothing is left of a conversion that was given up and ends. -/
theorem GivenUp.over_complete {number task : TaskId}
    (left : engine.GivenUp number task) :
    (engine.perform number (.complete task)).Over (number + 1) task := by
  refine ⟨left.perform _, ?_⟩
  rcases perform_complete_cases engine number task with
    ⟨missing, same⟩ | ⟨conversion, member, rfl, completes⟩
  · rw [same]
    intro conversion member
    simpa using List.find?_eq_none.mp missing conversion member
  · obtain ⟨outcome, ends⟩ := complete_of_isGivenUp engine
      (left.givenUp conversion member rfl)
    rw [completes, ends]
    intro other stays
    simpa using (List.mem_filter.mp stays).2

theorem GivenUp.over_runFrom_complete {number task : TaskId}
    (left : engine.GivenUp number task) {actions : List Action}
    (ends : .complete task ∈ actions) :
    (engine.runFrom number actions).Over
      (number + actions.length) task := by
  obtain ⟨first, rest, rfl⟩ := List.append_of_mem ends
  rw [runFrom_append, List.length_append, List.length_cons]
  have gone := (left.runFrom first).over_complete.runFrom rest
  rw [Nat.add_assoc (number + first.length), Nat.add_comm 1,
    Nat.add_assoc number] at gone
  exact gone

/-! ## A disposed engine -/

/-- The engine is disposed, and whatever is pending will end without an
effect. -/
structure Stopped (engine : Engine) : Prop where
  disposed : engine.disposed = true
  givenUp : ∀ conversion ∈ engine.conversions, conversion.isGivenUp = true

theorem Stopped.of_dispose
    (already : engine.disposed = true → engine.Stopped) :
    engine.dispose.Stopped := by
  by_cases disposed : engine.disposed = true
  · rw [dispose_of_disposed disposed]
    exact already disposed
  · unfold dispose
    rw [if_neg disposed]
    refine ⟨rfl, ?_⟩
    intro conversion member
    obtain ⟨earlier, _, rfl⟩ := List.mem_map.mp member
    exact earlier.isGivenUp_abandon

@[simp]
theorem appearance_dispose (engine : Engine) :
    engine.dispose.appearance = engine.appearance := by
  unfold dispose
  split <;> rfl

theorem begin_of_disposed (disposed : engine.disposed = true)
    (submission : Submission) :
    ∃ outcome,
      engine.begin submission =
        engine.finish submission.task outcome := by
  unfold begin
  split
  · exact ⟨.cancelled, rfl⟩
  · have fails : engine.start = (engine, some .disposed) := by
      simp [start, disposed]
    rw [fails]
    exact ⟨.failed .disposed, rfl⟩

/-- Telling those outside changes nothing of the engine. -/
theorem tellAll_outside {tell : Engine → EngineListener → Step}
    (unmoved : ∀ engine number, tell engine (.outside number) = engine.ok)
    {listeners : List EngineListener}
    (outside : ∀ listener ∈ listeners,
      ∃ number, listener = .outside number) (engine : Engine) :
    tellAll tell engine listeners = engine.ok := by
  induction listeners with
  | nil =>
      rfl
  | cons listener rest inductionHypothesis =>
      obtain ⟨number, rfl⟩ := outside listener List.mem_cons_self
      rw [tellAll, unmoved]
      exact inductionHypothesis fun other member =>
        outside other (List.mem_cons_of_mem _ member)

variable {ratesAlone : RatesCell} {baseAlone : BaseCell}

private theorem Stopped.silent (stopped : engine.Stopped) :
    engine.listening = false := by
  simp [listening, stopped.disposed]

theorem Stopped.begin (stopped : engine.Stopped)
    (submission : Submission) :
    (engine.begin submission).Stopped ∧
      (engine.begin submission).appearance = engine.appearance := by
  obtain ⟨outcome, ends⟩ := begin_of_disposed stopped.disposed submission
  rw [ends]
  exact ⟨⟨stopped.disposed, stopped.givenUp⟩, rfl⟩

theorem Stopped.complete (stopped : engine.Stopped)
    (pending : conversion ∈ engine.conversions) :
    (engine.complete conversion).Stopped ∧
      (engine.complete conversion).appearance = engine.appearance := by
  obtain ⟨outcome, ends⟩ :=
    complete_of_isGivenUp engine (stopped.givenUp conversion pending)
  rw [ends]
  refine ⟨⟨stopped.disposed, ?_⟩, rfl⟩
  intro other stays
  exact stopped.givenUp other (List.mem_filter.mp stays).1

theorem Stopped.cancel (stopped : engine.Stopped) (task : TaskId) :
    (engine.cancel task).Stopped := by
  refine ⟨stopped.disposed, ?_⟩
  intro conversion member
  obtain ⟨earlier, pending, rfl⟩ := List.mem_map.mp member
  split
  · exact earlier.isGivenUp_cancel
  · exact stopped.givenUp earlier pending

theorem Stopped.setRates (stopped : engine.Stopped)
    (link : engine.Linked ratesAlone baseAlone) (rates : Snapshot) :
    (engine.setRates (some rates)).1.Stopped ∧
      (engine.setRates (some rates)).1.appearance = engine.appearance := by
  cases changed : engine.rates.change? (some rates) with
  | none =>
      rw [setRates_of_unchanged changed]
      exact ⟨stopped, rfl⟩
  | some cell =>
      have outside := link.1.outside
      rw [← link.1.unlinked stopped.silent] at outside
      rw [setRates_of_changed changed,
        tellAll_outside (fun _ _ => rfl) outside]
      refine ⟨⟨stopped.disposed, ?_⟩, rfl⟩
      intro conversion member
      obtain ⟨earlier, pending, rfl⟩ := List.mem_map.mp member
      exact PendingConversion.isGivenUp_receive
        (stopped.givenUp earlier pending) _ _

theorem Stopped.setBase (stopped : engine.Stopped)
    (link : engine.Linked ratesAlone baseAlone) (base : Text) :
    (engine.setBase (some base)).1.Stopped ∧
      (engine.setBase (some base)).1.appearance = engine.appearance := by
  cases changed : engine.base.change? (some base) with
  | none =>
      rw [setBase_of_unchanged changed]
      exact ⟨stopped, rfl⟩
  | some cell =>
      have outside := link.2.outside
      rw [← link.2.unlinked stopped.silent] at outside
      rw [setBase_of_changed changed,
        tellAll_outside (fun _ _ => rfl) outside]
      exact ⟨⟨stopped.disposed, stopped.givenUp⟩, rfl⟩

/-- A disposed engine stays so and looks the same after every action. -/
theorem Stopped.perform (stopped : engine.Stopped)
    (link : engine.Linked ratesAlone baseAlone)
    (number : TaskId) (action : Action) :
    (engine.perform number action).Stopped ∧
      (engine.perform number action).appearance = engine.appearance := by
  have stays : engine.Stopped ∧ engine.appearance = engine.appearance :=
    ⟨stopped, rfl⟩
  cases action with
  | start =>
      have fails : engine.start.1 = engine := by
        simp [start, stopped.disposed]
      rw [Engine.perform, fails]
      exact stays
  | dispose =>
      rw [Engine.perform, dispose_of_disposed stopped.disposed]
      exact stays
  | handle event =>
      exact stopped.begin _
  | beginNext =>
      rcases perform_beginNext_cases engine number with
        same | ⟨submission, rest, _, begins⟩
      · rw [same]
        exact stays
      · have taken : ({ engine with submissions := rest } : Engine).Stopped :=
          ⟨stopped.disposed, stopped.givenUp⟩
        rw [begins]
        exact taken.begin submission
  | look task =>
      rcases perform_look_cases engine number task with
        ⟨_, same⟩ | ⟨conversion, pending, _, looks⟩
      · rw [same]
        exact stays
      · rw [looks,
          look_of_isGivenUp engine (stopped.givenUp conversion pending)]
        exact stays
  | complete task =>
      rcases perform_complete_cases engine number task with
        ⟨_, same⟩ | ⟨conversion, pending, _, ends⟩
      · rw [same]
        exact stays
      · rw [ends]
        exact stopped.complete pending
  | cancel task =>
      exact ⟨stopped.cancel task, rfl⟩
  | setRates rates =>
      exact stopped.setRates link rates
  | setBase base =>
      exact stopped.setBase link base
  | _ =>
      exact ⟨⟨stopped.disposed, stopped.givenUp⟩, rfl⟩

theorem Stopped.runFrom
    (actions : List Action) {engine : Engine}
    {ratesAlone : RatesCell} {baseAlone : BaseCell}
    (stopped : engine.Stopped)
    (link : engine.Linked ratesAlone baseAlone) (number : TaskId) :
    (engine.runFrom number actions).Stopped ∧
      (engine.runFrom number actions).appearance =
        engine.appearance := by
  induction actions generalizing engine number ratesAlone baseAlone with
  | nil =>
      exact ⟨stopped, rfl⟩
  | cons action rest inductionHypothesis =>
      obtain ⟨next, sameHere⟩ := stopped.perform link number action
      obtain ⟨last, sameLater⟩ :=
        inductionHypothesis next (link.perform number action) (number + 1)
      exact ⟨last, sameLater.trans sameHere⟩

/-! ## Whether an engine is disposed -/

/-- Only disposal disposes of an engine. -/
theorem disposed_perform (engine : Engine) (number : TaskId)
    {action : Action} (keeps : action ≠ .dispose) :
    (engine.perform number action).disposed = engine.disposed := by
  have begins : ∀ (engine : Engine) (submission : Submission),
      (engine.begin submission).disposed = engine.disposed := by
    intro engine submission
    obtain ⟨ready, begun, finished, isReady, _, _, sameFrame⟩ :=
      frame_begin engine submission
    have same := congrArg Frame.disposed sameFrame
    rcases isReady with rfl | ⟨_, rfl⟩ <;> exact same
  cases action with
  | start =>
      rcases frame_start engine with sameFrame | ⟨_, sameFrame⟩ <;>
        exact congrArg Frame.disposed sameFrame
  | dispose =>
      exact absurd rfl keeps
  | handle event =>
      exact begins engine _
  | beginNext =>
      rcases perform_beginNext_cases engine number with
        same | ⟨submission, rest, _, turn⟩
      · rw [same]
      · rw [turn]
        exact begins _ submission
  | look task =>
      rcases perform_look_cases engine number task with
        ⟨_, same⟩ | ⟨conversion, _, _, looks⟩
      · rw [same]
      · rw [looks]
        unfold look
        split <;> rfl
  | complete task =>
      rcases perform_complete_cases engine number task with
        ⟨_, same⟩ | ⟨conversion, _, _, completes⟩
      · rw [same]
      · rw [completes]
        rcases frame_complete engine conversion with
          ⟨same, _⟩ | ⟨_, dropped⟩
        · rw [same]
        · exact congrArg Frame.disposed dropped
  | setRates rates =>
      rcases frame_setRates engine rates with
        ⟨_, sameFrame⟩ | ⟨_, sameFrame⟩ <;>
        exact congrArg Frame.disposed sameFrame
  | setBase base =>
      rcases frame_setBase engine base with
        ⟨_, sameFrame⟩ | ⟨_, sameFrame⟩ <;>
        exact congrArg Frame.disposed sameFrame
  | _ =>
      rfl

/-- An engine that is disposed has nothing pending with an effect. -/
theorem stopped_of_disposed (config : Config)
    (rates : Option (Option Snapshot)) (base : Option (Option Text))
    (actions : List Action)
    (disposed : ((new config rates base).runFrom 0 actions).disposed = true) :
    ((new config rates base).runFrom 0 actions).Stopped := by
  have general :
      (∃ ratesAlone baseAlone,
          ((new config rates base).runFrom 0 actions).Linked ratesAlone
            baseAlone) ∧
        (((new config rates base).runFrom 0 actions).disposed = true →
          ((new config rates base).runFrom 0 actions).Stopped) := by
    refine runFrom_induction
      (motive := fun _ engine =>
        (∃ ratesAlone baseAlone, engine.Linked ratesAlone baseAlone) ∧
          (engine.disposed = true → engine.Stopped))
      ?_ actions ⟨⟨_, _, new_linked config rates base⟩, nofun⟩
    rintro engine number action ⟨⟨ratesAlone, baseAlone, link⟩, stopped⟩
    refine ⟨⟨_, _, link.perform number action⟩, fun disposedNext => ?_⟩
    by_cases disposes : action = .dispose
    · rw [disposes]
      exact .of_dispose stopped
    · rw [disposed_perform engine number disposes] at disposedNext
      exact ((stopped disposedNext).perform link number action).1
  exact general.2 disposed

theorem Tidy.givenUp_of_abandon {number task : TaskId}
    (tidy : engine.Tidy number)
    (stopped : engine.disposed = true → engine.Stopped)
    (found : engine.conversionOf? task = some conversion)
    {abandon : Action} (abandons : abandon ∈ [.dispose, .cancel task]) :
    (engine.perform number abandon).GivenUp (number + 1) task := by
  obtain ⟨member, rfl⟩ := conversionOf?_eq_some found
  have pending : conversion.task ∈ engine.conversions.map (·.task) :=
    List.mem_map_of_mem member
  have known : conversion.task ∈ engine.tasks :=
    List.mem_append_right _ pending
  simp only [List.mem_cons, List.not_mem_nil, or_false] at abandons
  refine ⟨tidy.of_moves (moves_perform engine number abandon),
    Nat.lt_succ_of_lt (tidy.earlier _ known), ?_, ?_⟩
  · intro submission waits sameTask
    have unannounced : abandon.event? = none := by
      rcases abandons with rfl | rfl <;> rfl
    rcases submission_of_mem_perform waits with
      ⟨_, announced⟩ | ⟨earlier, waited, same, _⟩
    · rw [unannounced] at announced
      cases announced
    · have twice : conversion.task ∈ engine.submissions.map (·.task) := by
        rw [← sameTask, ← same]
        exact List.mem_map_of_mem waited
      exact (List.nodup_append.mp tidy.distinct).2.2 _ twice _ pending rfl
  · intro other stays own
    rcases abandons with rfl | rfl
    · exact (Stopped.of_dispose stopped).givenUp other stays
    · obtain ⟨earlier, _, rfl⟩ := List.mem_map.mp stays
      by_cases sameTask : earlier.task = conversion.task
      · rw [if_pos sameTask]
        exact earlier.isGivenUp_cancel
      · rw [if_neg sameTask] at own
        exact absurd own sameTask

/-! ## Settling -/

private theorem conversion_of_mem_foldl_complete
    (conversions : List PendingConversion) {engine : Engine}
    (stays : conversion ∈ (conversions.foldl complete engine).conversions) :
    conversion ∈ engine.conversions ∧
      ∀ other ∈ conversions, other.isGivenUp = true →
        conversion.task ≠ other.task := by
  -- The rest may end conversions with an effect in between, but no end begins
  -- a conversion.
  induction conversions generalizing engine with
  | nil =>
      exact ⟨stays, nofun⟩
  | cons first rest inductionHypothesis =>
      obtain ⟨left, unlikeRest⟩ := inductionHypothesis stays
      have here : conversion ∈ engine.conversions ∧
          (first.isGivenUp = true → conversion.task ≠ first.task) := by
        by_cases givenUp : first.isGivenUp = true
        · obtain ⟨outcome, ends⟩ := complete_of_isGivenUp engine givenUp
          rw [ends] at left
          obtain ⟨member, different⟩ := List.mem_filter.mp left
          exact ⟨member, fun _ => by simpa using different⟩
        · refine ⟨?_, fun isGivenUp => absurd isGivenUp givenUp⟩
          rcases frame_complete engine first with
            ⟨same, _⟩ | ⟨_, dropped⟩
          · rw [same] at left
            exact left
          · have conversions := congrArg Frame.conversions dropped
            change (engine.complete first).conversions =
              engine.conversions.filter (·.task != first.task)
                at conversions
            rw [conversions] at left
            exact (List.mem_filter.mp left).1
      refine ⟨here.1, fun other member => ?_⟩
      rcases List.mem_cons.mp member with rfl | later
      · exact here.2
      · exact unlikeRest other later

/-- What is pending after settling was pending after a run and is not given
up. -/
theorem conversion_of_mem_settle (distinct : engine.tasks.Nodup)
    (number : TaskId) :
    ∃ actions, ∀ conversion ∈ engine.settle.conversions,
      conversion ∈ (engine.runFrom number actions).conversions ∧
        conversion.isGivenUp = false := by
  obtain ⟨looking, looked, looks, _, settles⟩ :=
    settle_eq_foldl_complete distinct number
  refine ⟨List.replicate engine.submissions.length .beginNext ++
    looking.map .look, fun conversion stays => ?_⟩
  rw [settles] at stays
  obtain ⟨member, unlike⟩ := conversion_of_mem_foldl_complete _ stays
  rw [← looks]
  refine ⟨member, ?_⟩
  by_contra givenUp
  exact unlike conversion member (by simpa using givenUp) rfl

theorem GivenUp.over_settle {number task : TaskId}
    (left : engine.GivenUp number task) :
    ∃ later, engine.settle.Over later task := by
  obtain ⟨looking, ending, settles⟩ :=
    settle_eq_runFrom left.tidy.distinct number
  obtain ⟨actions, stays⟩ :=
    conversion_of_mem_settle left.tidy.distinct number
  have last := left.runFrom
    (List.replicate engine.submissions.length .beginNext ++
      looking.map .look ++ ending.map .complete)
  rw [← settles] at last
  refine ⟨_, last, fun conversion member own => ?_⟩
  obtain ⟨pending, effective⟩ := stays conversion member
  have givenUp :=
    (left.runFrom actions).givenUp conversion pending own
  rw [givenUp] at effective
  cases effective

theorem Stopped.settle {number : TaskId} (stopped : engine.Stopped)
    (link : engine.Linked ratesAlone baseAlone)
    (tidy : engine.Tidy number) :
    engine.settle.appearance = engine.appearance ∧
      engine.settle.conversions = [] ∧
      engine.settle.rates.waiters = [] := by
  obtain ⟨looking, ending, settles⟩ :=
    settle_eq_runFrom tidy.distinct number
  obtain ⟨actions, stays⟩ := conversion_of_mem_settle tidy.distinct number
  have none : engine.settle.conversions = [] := by
    refine List.eq_nil_iff_forall_not_mem.mpr fun conversion member => ?_
    obtain ⟨pending, effective⟩ := stays conversion member
    have givenUp :=
      (stopped.runFrom actions link number).1.givenUp conversion pending
    rw [givenUp] at effective
    cases effective
  have last := tidy.runFrom
    (List.replicate engine.submissions.length .beginNext ++
      looking.map .look ++ ending.map .complete)
  rw [← settles] at last
  refine ⟨?_, none, ?_⟩
  · rw [settles]
    exact (stopped.runFrom _ link number).2
  · refine List.eq_nil_iff_forall_not_mem.mpr fun task waits => ?_
    obtain ⟨conversion, member, _⟩ := last.awaited task waits
    rw [none] at member
    cases member

/-! ## The whole of a run -/

/-- Nothing is pending of a task, and the signal of rates does not know it to
wait. -/
def Forgets (engine : Engine) (task : TaskId) : Prop :=
  engine.conversionOf? task = none ∧ task ∉ engine.rates.waiters

/-- Whenever an engine is disposed, it looks the same ever after and has no
listeners and, once settled, nothing pending.  A conversion that is given up by
disposal or cancellation changes nothing, then or later, and leaves nothing
behind when it ends. -/
theorem disposal_and_cancellation
    (config : Config) (rates : Option (Option Snapshot))
    (base : Option (Option Text)) (earlier later : List Action) :
    let engine := (new config rates base).runFrom 0 earlier
    let number := earlier.length
    let disposed := engine.dispose.runFrom (number + 1) later
    (disposed.appearance = engine.appearance ∧
        disposed.settle.appearance = engine.appearance ∧
        disposed.rates.listeners =
          ((earlier ++ later).foldl Action.onRates (.new rates)).listeners ∧
        disposed.base.listeners =
          ((earlier ++ later).foldl Action.onBase (.new base)).listeners ∧
        disposed.settle.conversions = [] ∧
        disposed.settle.rates.waiters = []) ∧
      ∀ (task : TaskId) (conversion : PendingConversion),
        engine.conversionOf? task = some conversion →
          ∀ abandon ∈ [Action.dispose, .cancel task],
            let left := engine.perform number abandon
            let last := left.runFrom (number + 1) later
            left.appearance = engine.appearance ∧
              (∀ action ∈ [Action.look task, .complete task, .cancel task],
                (last.perform (number + 1 + later.length)
                    action).appearance =
                  last.appearance) ∧
              (.complete task ∈ later → last.Forgets task) ∧
              last.settle.Forgets task := by
  intro engine number disposed
  have tidy : engine.Tidy number := by
    have tidy := (new_tidy config rates base).runFrom earlier
    rw [Nat.zero_add] at tidy
    exact tidy
  have link : engine.Linked (earlier.foldl Action.onRates (.new rates))
      (earlier.foldl Action.onBase (.new base)) :=
    (new_linked config rates base).runFrom earlier 0
  have alreadyStopped : engine.disposed = true → engine.Stopped :=
    stopped_of_disposed config rates base earlier
  constructor
  · have stopped : engine.dispose.Stopped := .of_dispose alreadyStopped
    have disposedTidy : engine.dispose.Tidy (number + 1) :=
      tidy.of_moves (moves_perform engine number .dispose)
    obtain ⟨lastStopped, sameAppearance⟩ :=
      stopped.runFrom later link.dispose (number + 1)
    have lastLink := link.dispose.runFrom later (number + 1)
    obtain ⟨settled, nothing, nobody⟩ :=
      lastStopped.settle lastLink (disposedTidy.runFrom later)
    have unmoved := sameAppearance.trans (appearance_dispose engine)
    rw [List.foldl_append, List.foldl_append]
    exact ⟨unmoved, settled.trans unmoved,
      lastLink.1.unlinked lastStopped.silent,
      lastLink.2.unlinked lastStopped.silent, nothing, nobody⟩
  · intro task conversion found abandon abandons left last
    have given := tidy.givenUp_of_abandon alreadyStopped found abandons
    obtain ⟨_, settledOver⟩ := (given.runFrom later).over_settle
    refine ⟨?_, fun action own =>
        (given.runFrom later).appearance_perform own,
      fun ends => (given.over_runFrom_complete ends).conversionOf?_eq_none,
      settledOver.conversionOf?_eq_none⟩
    simp only [List.mem_cons, List.not_mem_nil, or_false] at abandons
    rcases abandons with rfl | rfl
    · exact appearance_dispose engine
    · rfl

/-- The first rates come when the conversion that waited for them is cancelled
already. -/
theorem rates_after_cancellation :
    let earlier : List Action :=
      [.submit (.digit five), .submit (.currency "EUR".toList),
        .beginNext, .beginNext, .look 1]
    let later : List Action := [.setRates ⟨none, []⟩, .complete 1]
    let engine := (new Config.default none none).runFrom 0 earlier
    let left := engine.perform 5 (.cancel 1)
    let last := left.runFrom 6 later
    engine.rates.waiters = [1] ∧
      (engine.conversionOf? 1).isSome = true ∧
      left.appearance = engine.appearance ∧ last.Forgets 1 := by
  intro earlier later engine left last
  have pending : (engine.conversionOf? 1).isSome = true := rfl
  obtain ⟨conversion, found⟩ := Option.isSome_iff_exists.mp pending
  obtain ⟨_, cancellation⟩ :=
    disposal_and_cancellation Config.default none none earlier later
  obtain ⟨unmoved, _, forgets, _⟩ :=
    cancellation 1 conversion found (.cancel 1) (by simp)
  exact ⟨rfl, pending, unmoved, forgets (by simp [later])⟩

end CurrencyPad.Engine
