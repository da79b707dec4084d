import CurrencyPad.Proofs.Engine.Waiting

/-!
# Interleavings

Events, conversions and new rates may come in any order.  Every ordinary action
of an orderly engine is one happening on its desk, so that a run of the engine
is a run of the desk, whatever the order of its actions is.
-/

namespace CurrencyPad.Engine

theorem Orderly.submit {number : TaskId} {engine : Engine}
    (orderly : engine.Orderly number) (event : Event) :
    Desk.Step engine.config engine.desk (.submitted number event)
        (engine.submit number event).desk ∧
      (engine.submit number event).Orderly (number + 1) := by
  have deskNext :
      (engine.submit number event).desk =
        { engine.desk with
          queue := engine.desk.queue ++ [(number, event)] } := by
    unfold desk Engine.submit
    rw [List.map_append]
    rfl
  have moved :
      (engine.submit number event).tasks.Perm (number :: engine.tasks) := by
    unfold tasks Engine.submit
    rw [List.map_append, List.append_assoc]
    exact List.perm_middle
  have unused : number ∉ engine.tasks :=
    fun member => Nat.lt_irrefl number (orderly.earlier number member)
  refine ⟨?_, orderly.undisposed, orderly.startable, ?_, ?_, ?_,
    orderly.known, orderly.sound⟩
  · rw [deskNext]
    exact .submit engine.desk number event
  · exact moved.nodup_iff.mpr
      (List.nodup_cons.mpr ⟨unused, orderly.distinct⟩)
  · intro task member
    rcases List.mem_cons.mp (moved.mem_iff.mp member) with rfl | old
    · exact Nat.lt_succ_self _
    · exact Nat.lt_succ_of_lt (orderly.earlier task old)
  · intro submission member
    rcases List.mem_append.mp member with old | new
    · exact orderly.uncancelled submission old
    · rw [List.mem_singleton.mp new]

theorem Orderly.perform_look {number : TaskId} {engine : Engine}
    (orderly : engine.Orderly number) (task : TaskId) :
    Desk.Step engine.config engine.desk
        (engine.happening number (.look task))
        (engine.perform number (.look task)).desk ∧
      (engine.perform number (.look task)).Orderly number := by
  cases found : engine.conversionOf? task with
  | none =>
      have same : engine.perform number (.look task) = engine := by
        simp only [Engine.perform, found, Option.elim]
      have nothing :
          engine.happening number (.look task) = .nothing := by
        simp only [happening, found, Option.elim]
      rw [same, nothing]
      exact ⟨.nothing engine.desk, orderly⟩
  | some conversion =>
      have looks :
          engine.perform number (.look task) =
            engine.look conversion := by
        simp only [Engine.perform, found, Option.elim]
      rw [looks]
      exact orderly.look found

theorem Orderly.perform_complete {number : TaskId} {engine : Engine}
    (orderly : engine.Orderly number) (task : TaskId) :
    Desk.Step engine.config engine.desk
        (engine.happening number (.complete task))
        (engine.perform number (.complete task)).desk ∧
      (engine.perform number (.complete task)).Orderly number := by
  cases found : engine.conversionOf? task with
  | none =>
      have same : engine.perform number (.complete task) = engine := by
        simp only [Engine.perform, found, Option.elim]
      have nothing :
          engine.happening number (.complete task) = .nothing := by
        simp only [happening, found, Option.elim]
      rw [same, nothing]
      exact ⟨.nothing engine.desk, orderly⟩
  | some conversion =>
      have ends :
          engine.perform number (.complete task) =
            engine.complete conversion := by
        simp only [Engine.perform, found, Option.elim]
      rw [ends]
      exact orderly.complete found

theorem Orderly.removeRefusing {number : TaskId} {engine : Engine}
    (orderly : engine.Orderly number) :
    engine.removeRefusing.Orderly number := by
  have startable : engine.started = true ∨ engine.refusing - 1 = 0 := by
    rcases orderly.startable with started | accepting
    · exact .inl started
    · right
      omega
  exact ⟨orderly.undisposed, startable, orderly.distinct, orderly.earlier,
    orderly.uncancelled, orderly.known, orderly.sound⟩

/-- An ordinary action of an orderly engine is one happening on its desk, and
leaves it in order. -/
theorem Orderly.perform {number : TaskId} {engine : Engine}
    (orderly : engine.Orderly number) {action : Action}
    (ordinary : action.isOrdinary = true) :
    Desk.Step engine.config engine.desk
        (engine.happening number action)
        (engine.perform number action).desk ∧
      (engine.perform number action).Orderly (number + 1) := by
  have later : ∀ {next : Engine},
      Desk.Step engine.config engine.desk
          (engine.happening number action) next.desk ∧
        next.Orderly number →
      Desk.Step engine.config engine.desk
          (engine.happening number action) next.desk ∧
        next.Orderly (number + 1) :=
    fun ⟨step, ordered⟩ => ⟨step, ordered.later⟩
  have unheard : ∀ {next : Engine},
      engine.happening number action = .nothing →
      next.desk = engine.desk ∧ next.Orderly number →
        Desk.Step engine.config engine.desk
            (engine.happening number action) next.desk ∧
          next.Orderly (number + 1) := by
    intro next happens ⟨sameDesk, ordered⟩
    rw [happens, sameDesk]
    exact ⟨.nothing engine.desk, ordered.later⟩
  cases action with
  | start =>
      obtain ⟨_, started, sameDesk, _⟩ := orderly.start
      exact unheard rfl ⟨sameDesk, started⟩
  | submit event =>
      exact orderly.submit event
  | beginNext =>
      exact later orderly.beginNext
  | look task =>
      exact later (orderly.perform_look task)
  | complete task =>
      exact later (orderly.perform_complete task)
  | setRates rates =>
      exact later (orderly.setRates rates)
  | setBase base =>
      exact unheard rfl (orderly.setBase base)
  | accept =>
      exact unheard rfl ⟨rfl, orderly.removeRefusing⟩
  | dispose =>
      cases ordinary
  | handle event =>
      cases ordinary
  | cancel task =>
      cases ordinary
  | refuse =>
      cases ordinary
  | _ =>
      exact unheard rfl ⟨rfl, orderly.of_ledger_eq rfl⟩

/-- A run of ordinary actions, in any order, is a run of the desk. -/
theorem Orderly.runFrom
    (actions : List Action) {number : TaskId} {engine : Engine}
    (orderly : engine.Orderly number)
    (ordinary : ∀ action ∈ actions, action.isOrdinary = true) :
    Desk.Run engine.config engine.desk
        (engine.happenings number actions)
        (engine.runFrom number actions).desk ∧
      (engine.runFrom number actions).Orderly
        (number + actions.length) := by
  induction actions generalizing engine number with
  | nil =>
      exact ⟨.nil engine.desk, orderly⟩
  | cons action rest inductionHypothesis =>
      have first : action.isOrdinary = true :=
        ordinary action List.mem_cons_self
      have others : ∀ other ∈ rest, other.isOrdinary = true :=
        fun other member =>
          ordinary other (List.mem_cons_of_mem action member)
      obtain ⟨step, next⟩ := orderly.perform first
      obtain ⟨run, last⟩ := inductionHypothesis next others
      rw [config_perform] at run
      have counted :
          number + (action :: rest).length =
            number + 1 + rest.length := by
        rw [List.length_cons, Nat.add_assoc, Nat.add_comm 1]
      refine ⟨.cons step run, ?_⟩
      rw [counted]
      exact last

/-- A run of peaceful actions, in any order, leaves an engine in order. -/
theorem Orderly.runFrom_peaceful
    (actions : List Action) {number : TaskId} {engine : Engine}
    (orderly : engine.Orderly number)
    (peaceful : ∀ action ∈ actions, action.isPeaceful = true) :
    (engine.runFrom number actions).Orderly (number + actions.length) := by
  induction actions generalizing engine number with
  | nil =>
      exact orderly
  | cons action rest inductionHypothesis =>
      have first : action.isPeaceful = true :=
        peaceful action List.mem_cons_self
      have others : ∀ other ∈ rest, other.isPeaceful = true :=
        fun other member =>
          peaceful other (List.mem_cons_of_mem action member)
      have next : (engine.perform number action).Orderly (number + 1) := by
        by_cases atOnce : ∃ event, action = .handle event
        · obtain ⟨event, rfl⟩ := atOnce
          exact orderly.handle event
        · have ordinary : action.isOrdinary = true :=
            Action.isOrdinary_of_isPeaceful first fun event same =>
              atOnce ⟨event, same⟩
          exact (orderly.perform ordinary).2
      have last := inductionHypothesis next others
      rw [List.length_cons, Nat.add_comm rest.length, ← Nat.add_assoc]
      exact last

/-- Settling is a run of ordinary actions. -/
theorem Orderly.settle_eq_runFrom {number : TaskId} {engine : Engine}
    (orderly : engine.Orderly number) :
    ∃ actions : List Action,
      (∀ action ∈ actions, action.isOrdinary = true) ∧
        engine.settle = engine.runFrom number actions := by
  obtain ⟨looking, ending, settles⟩ :=
    Engine.settle_eq_runFrom orderly.distinct number
  refine ⟨_, ?_, settles⟩
  intro action member
  simp only [List.mem_append, List.mem_replicate, List.mem_map] at member
  rcases member with (⟨_, rfl⟩ | ⟨_, _, rfl⟩) | ⟨_, _, rfl⟩ <;> rfl

/-- Whatever the order of the actions is, each event has its turn once and in
the order in which the events were handed in, and applies to the entry of that
moment.  A choice of currency with an amount only notes what there is at its
turn; it changes the entry once, when it ends, by the amount it noted and the
rates it received, or is pending still.  Nothing else changes the entry. -/
theorem interleavings_follow_desk
    (config : Config) (rates : Option Snapshot) (base : Option Text)
    (earlier later : List Action)
    (peaceful : ∀ action ∈ earlier, action.isPeaceful = true)
    (ordinary : ∀ action ∈ later, action.isOrdinary = true) :
    let engine :=
      (new config (rates.map some) (base.map some)).runFrom 0 earlier
    let last := engine.runFrom earlier.length later
    let happened := engine.happenings earlier.length later
    Desk.Run config engine.desk happened last.desk ∧
      engine.desk.queue ++ happened.flatMap Happening.submissions =
        happened.flatMap Happening.turns ++ last.desk.queue ∧
      (engine.desk.captures ++
          happened.flatMap Happening.captures).Perm
        (happened.flatMap Happening.conversions ++
          last.desk.captures) ∧
      last.entry =
        happened.foldl (Happening.effect config) engine.entry := by
  intro engine last happened
  have first := new_orderly config rates (base.map some)
  have orderly := first.runFrom_peaceful earlier peaceful
  rw [Nat.zero_add] at orderly
  obtain ⟨run, _⟩ := orderly.runFrom later ordinary
  rw [config_runFrom] at run
  exact ⟨run, run.queue, run.captures, run.entry⟩

def five : Digit :=
  ⟨'5', by decide⟩

/-- The expression is cleared while a conversion waits for the first rates. -/
theorem clearing_during_conversion :
    let earlier : List Action :=
      [.submit (.digit five), .submit (.currency "EUR".toList),
        .beginNext, .beginNext]
    let later : List Action :=
      [.submit .clear, .look 1, .beginNext, .setRates ⟨none, []⟩,
        .complete 1]
    let engine := (new Config.default none none).runFrom 0 earlier
    let last := engine.runFrom 4 later
    let happened := engine.happenings 4 later
    Desk.Run Config.default engine.desk happened last.desk ∧
      last.entry =
        happened.foldl (Happening.effect Config.default)
          engine.entry := by
  intro earlier later engine last happened
  have peaceful : ∀ action ∈ earlier, action.isPeaceful = true := by
    simp [earlier, Action.isPeaceful]
  have ordinary : ∀ action ∈ later, action.isOrdinary = true := by
    simp [later, Action.isOrdinary, Action.isPeaceful]
  obtain ⟨run, _, _, sameEntry⟩ :=
    interleavings_follow_desk Config.default none none earlier later
      peaceful ordinary
  exact ⟨run, sameEntry⟩

end CurrencyPad.Engine
