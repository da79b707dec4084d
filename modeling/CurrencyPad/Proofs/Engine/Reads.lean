import CurrencyPad.Proofs.Engine.Effect

/-!
# Reads in flight

A conversion is pending as long as its read of the rates is in flight.  Every
read that the signal waits for is the read of one pending conversion, and a
conversion that is given up stays given up until it ends.  So nothing is left of
a conversion that has ended.
-/

namespace CurrencyPad

namespace PendingConversion

/-- The conversion will end without an effect. -/
def isGivenUp (conversion : PendingConversion) : Bool :=
  match conversion.read with
  | .abandoned => true
  | .cancelled => true
  | _ => false

@[simp]
theorem task_abandon (conversion : PendingConversion) :
    conversion.abandon.task = conversion.task := by
  unfold abandon
  split <;> rfl

@[simp]
theorem task_cancel (conversion : PendingConversion) :
    conversion.cancel.task = conversion.task := by
  unfold cancel
  split <;> rfl

@[simp]
theorem task_receive (rates : Option Snapshot) (waiters : List TaskId)
    (conversion : PendingConversion) :
    (conversion.receive rates waiters).task = conversion.task := by
  unfold receive
  split
  · split <;> rfl
  · rfl

theorem isGivenUp_abandon (conversion : PendingConversion) :
    conversion.abandon.isGivenUp = true := by
  unfold abandon
  split
  case h_1 cancelled =>
    simp [isGivenUp, cancelled]
  · rfl

theorem isGivenUp_cancel (conversion : PendingConversion) :
    conversion.cancel.isGivenUp = true := by
  unfold cancel
  split
  case h_1 abandoned =>
    simp [isGivenUp, abandoned]
  · rfl

theorem isGivenUp_receive {conversion : PendingConversion}
    (givenUp : conversion.isGivenUp = true) (rates : Option Snapshot)
    (waiters : List TaskId) :
    (conversion.receive rates waiters).isGivenUp = true := by
  unfold receive
  split
  case h_1 waits =>
    simp [isGivenUp, waits] at givenUp
  · exact givenUp

theorem read_ne_requested_of_receive {conversion : PendingConversion}
    (looked : conversion.read ≠ .requested) (rates : Option Snapshot)
    (waiters : List TaskId) :
    (conversion.receive rates waiters).read ≠ .requested := by
  unfold receive
  split
  · split
    · rintro ⟨⟩
    · exact looked
  · exact looked

theorem read_ne_requested_of_isGivenUp {conversion : PendingConversion}
    (givenUp : conversion.isGivenUp = true) :
    conversion.read ≠ .requested := by
  intro requested
  simp [isGivenUp, requested] at givenUp

/-- Where others of the same task are replaced by it, a conversion has looked for
rates. -/
def lookedWith (conversion : PendingConversion) (read : RateRead)
    (other : PendingConversion) : PendingConversion :=
  if other.task = conversion.task then { conversion with read := read }
  else other

@[simp]
theorem task_lookedWith (conversion : PendingConversion) (read : RateRead)
    (other : PendingConversion) :
    (conversion.lookedWith read other).task = other.task := by
  unfold lookedWith
  split
  case isTrue same =>
    exact same.symm
  · rfl

end PendingConversion

namespace Engine

/-! ## Moves -/

/-- What an action can make of the tasks of an engine and of those whom its
signal of rates knows to wait. -/
inductive Moves (number : TaskId) (before after : Engine) : Prop
  | changed (change : PendingConversion → PendingConversion)
      (sameTask : ∀ conversion, (change conversion).task = conversion.task)
      (givenUp : ∀ conversion, conversion.isGivenUp = true →
        (change conversion).isGivenUp = true)
      (looked : ∀ conversion, conversion.read ≠ .requested →
        (change conversion).read ≠ .requested)
      (submissions :
        after.submissions.map (·.task) = before.submissions.map (·.task))
      (conversions : after.conversions = before.conversions.map change)
      (waiters :
        after.rates.waiters = before.rates.waiters ∨
          after.rates.waiters = [])
  | submitted
      (submissions :
        after.submissions.map (·.task) =
          before.submissions.map (·.task) ++ [number])
      (conversions : after.conversions = before.conversions)
      (waiters : after.rates.waiters = before.rates.waiters)
  | turned (task : TaskId) (begun : List PendingConversion)
      (turn :
        before.submissions.map (·.task) =
            task :: after.submissions.map (·.task) ∨
          task = number ∧
            after.submissions.map (·.task) =
              before.submissions.map (·.task))
      (own : ∀ conversion ∈ begun,
        conversion.task = task ∧ conversion.read = .requested)
      (atMostOne : begun.length ≤ 1)
      (conversions : after.conversions = before.conversions ++ begun)
      (waiters : after.rates.waiters = before.rates.waiters)
  | looked (conversion : PendingConversion) (read : RateRead)
      (pending : conversion ∈ before.conversions)
      (requested : conversion.read = .requested)
      (looks : read ≠ .requested)
      (submissions :
        after.submissions.map (·.task) = before.submissions.map (·.task))
      (conversions :
        after.conversions =
          before.conversions.map (conversion.lookedWith read))
      (waiters :
        after.rates.waiters = before.rates.waiters ∨
          after.rates.waiters =
            before.rates.waiters ++ [conversion.task])
  | ended (task : TaskId)
      (submissions :
        after.submissions.map (·.task) = before.submissions.map (·.task))
      (conversions :
        after.conversions =
          before.conversions.filter (·.task != task))
      (waiters :
        after.rates.waiters = before.rates.waiters.erase task)

theorem moves_of_same {number : TaskId} {before after : Engine}
    (submissions :
      after.submissions.map (·.task) = before.submissions.map (·.task))
    (conversions : after.conversions = before.conversions)
    (waiters : after.rates.waiters = before.rates.waiters) :
    Moves number before after :=
  .changed id (fun _ => rfl) (fun _ givenUp => givenUp)
    (fun _ looked => looked) submissions
    (conversions.trans (List.map_id _).symm) (.inl waiters)

theorem moves_begin {engine : Engine} {number : TaskId}
    {submission : Submission} {before : Engine}
    (turn :
      before.submissions.map (·.task) =
          submission.task :: engine.submissions.map (·.task) ∨
        submission.task = number ∧
          engine.submissions.map (·.task) =
            before.submissions.map (·.task))
    (sameConversions : engine.conversions = before.conversions)
    (sameWaiters : engine.rates.waiters = before.rates.waiters) :
    Moves number before (engine.begin submission) := by
  obtain ⟨ready, begun, finished, isReady, own, atMostOne, sameFrame⟩ :=
    frame_begin engine submission
  have readyParts :
      ready.conversions = engine.conversions ∧
        ready.rates.waiters = engine.rates.waiters := by
    rcases isReady with rfl | ⟨_, rfl⟩ <;> exact ⟨rfl, rfl⟩
  have conversions :
      (engine.begin submission).conversions =
        ready.conversions ++ begun :=
    congrArg Frame.conversions sameFrame
  have waiters :
      (engine.begin submission).rates.waiters = ready.rates.waiters :=
    congrArg (fun frame => frame.rates.waiters) sameFrame
  refine .turned submission.task begun ?_ own atMostOne ?_ ?_
  · rw [submissions_begin]
    exact turn
  · rw [conversions, readyParts.1, sameConversions]
  · rw [waiters, readyParts.2, sameWaiters]

theorem moves_look {engine : Engine} {conversion : PendingConversion}
    (pending : conversion ∈ engine.conversions) (number : TaskId) :
    Moves number engine (engine.look conversion) := by
  unfold look
  split
  case h_1 requested _ =>
    exact .looked conversion (.received _) pending requested nofun rfl rfl
      (.inl rfl)
  case h_2 requested _ =>
    exact .looked conversion .waiting pending requested nofun rfl rfl
      (.inr rfl)
  · exact moves_of_same rfl rfl rfl

theorem moves_complete (engine : Engine)
    (conversion : PendingConversion) (number : TaskId) :
    Moves number engine (engine.complete conversion) := by
  rcases frame_complete engine conversion with
    ⟨same, _⟩ | ⟨finished, dropped⟩
  · rw [same]
    exact moves_of_same rfl rfl rfl
  · have submissions :=
      congrArg (fun frame => frame.submissions.map (·.task)) dropped
    have conversions := congrArg Frame.conversions dropped
    have waiters :=
      congrArg (fun frame => frame.rates.waiters) dropped
    exact .ended conversion.task submissions conversions waiters

/-- A frame that is kept keeps the tasks and whoever waits. -/
theorem moves_of_frame_eq {number : TaskId} {before after : Engine}
    (sameFrame : after.frame = before.frame) : Moves number before after :=
  moves_of_same
    (congrArg (fun frame => frame.submissions.map (·.task)) sameFrame)
    (congrArg Frame.conversions sameFrame)
    (congrArg (fun frame => frame.rates.waiters) sameFrame)

theorem moves_start (engine : Engine) (number : TaskId) :
    Moves number engine engine.start.1 := by
  refine moves_of_same ?_ (conversions_start engine) ?_
  · exact congrArg (List.map (·.task)) (submissions_start engine)
  · rcases frame_start engine with sameFrame | ⟨_, sameFrame⟩ <;>
      exact congrArg (fun frame => frame.rates.waiters) sameFrame

theorem moves_dispose (engine : Engine) (number : TaskId) :
    Moves number engine engine.dispose := by
  by_cases disposed : engine.disposed = true
  · rw [dispose_of_disposed disposed]
    exact moves_of_same rfl rfl rfl
  · unfold dispose
    rw [if_neg disposed]
    exact .changed PendingConversion.abandon
      PendingConversion.task_abandon
      (fun conversion _ => conversion.isGivenUp_abandon)
      (fun conversion _ => PendingConversion.read_ne_requested_of_isGivenUp
        conversion.isGivenUp_abandon)
      List.map_map rfl (.inl rfl)

theorem moves_beginNext (engine : Engine) (number : TaskId) :
    Moves number engine (engine.perform number .beginNext) := by
  rcases perform_beginNext_cases engine number with
    same | ⟨submission, rest, waiting, begins⟩
  · rw [same]
    exact moves_of_same rfl rfl rfl
  · rw [begins]
    refine moves_begin (.inl ?_) rfl rfl
    rw [waiting]
    rfl

theorem moves_cancel (engine : Engine) (number task : TaskId) :
    Moves number engine (engine.perform number (.cancel task)) := by
  refine .changed
    (fun conversion =>
      if conversion.task = task then conversion.cancel else conversion)
    ?_ ?_ ?_ ?_ rfl (.inl rfl)
  · intro conversion
    split
    · exact conversion.task_cancel
    · rfl
  · intro conversion givenUp
    split
    · exact conversion.isGivenUp_cancel
    · exact givenUp
  · intro conversion looked
    split
    · exact PendingConversion.read_ne_requested_of_isGivenUp
        conversion.isGivenUp_cancel
    · exact looked
  · change (engine.submissions.map _).map _ = _
    rw [List.map_map]
    apply List.map_congr_left
    intro submission _
    dsimp only [Function.comp]
    split <;> rfl

theorem moves_setRates (engine : Engine) (number : TaskId) (rates : Snapshot) :
    Moves number engine (engine.setRates (some rates)).1 := by
  rcases frame_setRates engine rates with ⟨_, sameFrame⟩ | ⟨_, sameFrame⟩
  · exact moves_of_frame_eq sameFrame
  · exact .changed
      (PendingConversion.receive (some rates) engine.rates.waiters)
      (PendingConversion.task_receive _ _)
      (fun _ givenUp => PendingConversion.isGivenUp_receive givenUp _ _)
      (fun _ looked =>
        PendingConversion.read_ne_requested_of_receive looked _ _)
      (congrArg (fun frame => frame.submissions.map (·.task)) sameFrame)
      (congrArg Frame.conversions sameFrame)
      (.inr (congrArg (fun frame => frame.rates.waiters) sameFrame))

theorem moves_setBase (engine : Engine) (number : TaskId) (base : Text) :
    Moves number engine (engine.setBase (some base)).1 := by
  rcases frame_setBase engine base with
    ⟨_, sameFrame⟩ | ⟨_, sameFrame⟩ <;>
    exact moves_of_same
      (congrArg (fun frame => frame.submissions.map (·.task)) sameFrame)
      (congrArg Frame.conversions sameFrame)
      (congrArg (fun frame => frame.rates.waiters) sameFrame)

/-- Every action moves the tasks in one of the ways in which they can move. -/
theorem moves_perform
    (engine : Engine) (number : TaskId) (action : Action) :
    Moves number engine (engine.perform number action) := by
  cases action with
  | start =>
      exact moves_start engine number
  | dispose =>
      exact moves_dispose engine number
  | submit event =>
      exact .submitted List.map_append rfl rfl
  | handle event =>
      exact moves_begin (.inr ⟨rfl, rfl⟩) rfl rfl
  | beginNext =>
      exact moves_beginNext engine number
  | look task =>
      rcases perform_look_cases engine number task with
        ⟨_, same⟩ | ⟨conversion, pending, _, looks⟩
      · rw [same]
        exact moves_of_same rfl rfl rfl
      · rw [looks]
        exact moves_look pending number
  | complete task =>
      rcases perform_complete_cases engine number task with
        ⟨_, same⟩ | ⟨conversion, _, _, ends⟩
      · rw [same]
        exact moves_of_same rfl rfl rfl
      · rw [ends]
        exact moves_complete engine conversion number
  | cancel task =>
      exact moves_cancel engine number task
  | setRates rates =>
      exact moves_setRates engine number rates
  | setBase base =>
      exact moves_setBase engine number base
  | _ =>
      exact moves_of_same rfl rfl rfl

/-! ## Those who wait -/

/-- Tasks have numbers of their own, and whoever is known to wait is one pending
conversion that has looked for rates. -/
structure Tidy (number : TaskId) (engine : Engine) : Prop where
  distinct : engine.tasks.Nodup
  earlier : ∀ task ∈ engine.tasks, task < number
  single : engine.rates.waiters.Nodup
  awaited :
    ∀ task ∈ engine.rates.waiters, ∃ conversion ∈ engine.conversions,
      conversion.task = task ∧ conversion.read ≠ .requested

theorem new_tidy (config : Config) (rates : Option (Option Snapshot))
    (base : Option (Option Text)) :
    (new config rates base).Tidy 0 :=
  ⟨List.nodup_nil, nofun, List.nodup_nil, nofun⟩

variable {number : TaskId} {before after : Engine}

private theorem tasks_map {change : PendingConversion → PendingConversion}
    (sameTask : ∀ conversion, (change conversion).task = conversion.task)
    (submissions :
      after.submissions.map (·.task) = before.submissions.map (·.task))
    (conversions : after.conversions = before.conversions.map change) :
    after.tasks = before.tasks := by
  unfold tasks
  rw [submissions, conversions, List.map_map]
  congr 1
  exact List.map_congr_left fun conversion _ => sameTask conversion

theorem Tidy.distinct_conversions (tidy : before.Tidy number) :
    (before.conversions.map (·.task)).Nodup :=
  (List.nodup_append.mp tidy.distinct).2.1

/-- In a tidy engine a conversion that has not looked for rates is not known to
wait. -/
private theorem Tidy.not_mem_waiters (tidy : before.Tidy number)
    {conversion : PendingConversion}
    (pending : conversion ∈ before.conversions)
    (requested : conversion.read = .requested) :
    conversion.task ∉ before.rates.waiters := by
  intro member
  obtain ⟨other, waits, sameTask, looked⟩ :=
    tidy.awaited conversion.task member
  have same : other = conversion :=
    List.inj_on_of_nodup_map tidy.distinct_conversions waits pending
      sameTask
  rw [same] at looked
  exact looked requested

/-- Where no task is added, those that are left keep numbers of their own. -/
private theorem Tidy.tasks_of_sublist (tidy : before.Tidy number)
    (fewer : after.tasks.Sublist before.tasks) :
    after.tasks.Nodup ∧ ∀ task ∈ after.tasks, task < number + 1 :=
  ⟨fewer.nodup tidy.distinct, fun task member =>
    Nat.lt_succ_of_lt (tidy.earlier task (fewer.mem member))⟩

private theorem Tidy.changed (tidy : before.Tidy number)
    {change : PendingConversion → PendingConversion}
    (sameTask : ∀ conversion, (change conversion).task = conversion.task)
    (looked : ∀ conversion, conversion.read ≠ .requested →
      (change conversion).read ≠ .requested)
    (submissions :
      after.submissions.map (·.task) = before.submissions.map (·.task))
    (conversions : after.conversions = before.conversions.map change)
    (waiters :
      after.rates.waiters = before.rates.waiters ∨
        after.rates.waiters = []) :
    after.Tidy (number + 1) := by
  have sameTasks := tasks_map sameTask submissions conversions
  obtain ⟨distinct, earlier⟩ :=
    tidy.tasks_of_sublist (by rw [sameTasks])
  rcases waiters with same | none
  · refine ⟨distinct, earlier, same ▸ tidy.single, ?_⟩
    rw [same, conversions]
    intro task member
    obtain ⟨conversion, pending, rfl, hasLooked⟩ := tidy.awaited task member
    exact ⟨change conversion, List.mem_map_of_mem pending,
      sameTask conversion, looked conversion hasLooked⟩
  · refine ⟨distinct, earlier, none ▸ List.nodup_nil, ?_⟩
    rw [none]
    exact List.forall_mem_nil _

private theorem Tidy.submitted (tidy : before.Tidy number)
    (submissions :
      after.submissions.map (·.task) =
        before.submissions.map (·.task) ++ [number])
    (conversions : after.conversions = before.conversions)
    (waiters : after.rates.waiters = before.rates.waiters) :
    after.Tidy (number + 1) := by
  have moved : after.tasks.Perm (number :: before.tasks) := by
    unfold tasks
    rw [submissions, conversions, List.append_assoc]
    exact List.perm_middle
  have unused : number ∉ before.tasks :=
    fun member => Nat.lt_irrefl number (tidy.earlier number member)
  refine ⟨moved.nodup_iff.mpr (List.nodup_cons.mpr
    ⟨unused, tidy.distinct⟩), ?_, ?_, ?_⟩
  · intro task member
    rcases List.mem_cons.mp (moved.mem_iff.mp member) with rfl | old
    · exact Nat.lt_succ_self _
    · exact Nat.lt_succ_of_lt (tidy.earlier task old)
  · rw [waiters]
    exact tidy.single
  · rw [waiters, conversions]
    exact tidy.awaited

/-- The tasks after a turn are those before it, perhaps without the one whose
turn it was. -/
private theorem tasks_turned {task : TaskId}
    {begun : List PendingConversion}
    (own : ∀ conversion ∈ begun,
      conversion.task = task ∧ conversion.read = .requested)
    (atMostOne : begun.length ≤ 1)
    (conversions : after.conversions = before.conversions ++ begun) :
    after.tasks =
        after.submissions.map (·.task) ++
          before.conversions.map (·.task) ∨
      after.tasks.Perm
        (task :: (after.submissions.map (·.task) ++
          before.conversions.map (·.task))) := by
  unfold tasks
  rw [conversions]
  cases begun with
  | nil =>
      left
      rw [List.append_nil]
  | cons conversion rest =>
      have alone : rest = [] :=
        List.eq_nil_of_length_eq_zero (Nat.le_zero.mp
          (Nat.le_of_succ_le_succ atMostOne))
      right
      rw [alone, List.map_append, ← List.append_assoc, List.map_singleton,
        (own conversion List.mem_cons_self).1]
      exact List.perm_append_comm

/-- The tasks that wait or are pending and the one whose turn it is have numbers
of their own. -/
private theorem Tidy.tasks_at_turn (tidy : before.Tidy number) {task : TaskId}
    (turn :
      before.submissions.map (·.task) =
          task :: after.submissions.map (·.task) ∨
        task = number ∧
          after.submissions.map (·.task) =
            before.submissions.map (·.task)) :
    (task :: (after.submissions.map (·.task) ++
        before.conversions.map (·.task))).Nodup ∧
      ∀ other ∈ task :: (after.submissions.map (·.task) ++
        before.conversions.map (·.task)), other < number + 1 := by
  have distinct := tidy.distinct
  have earlier := tidy.earlier
  unfold tasks at distinct earlier
  rcases turn with first | ⟨rfl, same⟩
  · rw [first, List.cons_append] at distinct earlier
    exact ⟨distinct, fun other member =>
      Nat.lt_succ_of_lt (earlier other member)⟩
  · rw [same]
    refine ⟨List.nodup_cons.mpr ⟨?_, distinct⟩, ?_⟩
    · exact fun member => Nat.lt_irrefl _ (earlier _ member)
    · intro other member
      rcases List.mem_cons.mp member with rfl | old
      · exact Nat.lt_succ_self _
      · exact Nat.lt_succ_of_lt (earlier other old)

private theorem Tidy.turned (tidy : before.Tidy number) {task : TaskId}
    {begun : List PendingConversion}
    (turn :
      before.submissions.map (·.task) =
          task :: after.submissions.map (·.task) ∨
        task = number ∧
          after.submissions.map (·.task) =
            before.submissions.map (·.task))
    (own : ∀ conversion ∈ begun,
      conversion.task = task ∧ conversion.read = .requested)
    (atMostOne : begun.length ≤ 1)
    (conversions : after.conversions = before.conversions ++ begun)
    (waiters : after.rates.waiters = before.rates.waiters) :
    after.Tidy (number + 1) := by
  obtain ⟨distinct, earlier⟩ := tidy.tasks_at_turn turn
  have numbers : after.tasks.Nodup ∧
      ∀ other ∈ after.tasks, other < number + 1 := by
    rcases tasks_turned own atMostOne conversions with same | moved
    · rw [same]
      exact ⟨(List.nodup_cons.mp distinct).2, fun other member =>
        earlier other (List.mem_cons_of_mem task member)⟩
    · exact ⟨moved.nodup_iff.mpr distinct, fun other member =>
        earlier other (moved.mem_iff.mp member)⟩
  refine ⟨numbers.1, numbers.2, waiters ▸ tidy.single, ?_⟩
  rw [waiters, conversions]
  intro other member
  obtain ⟨conversion, pending, facts⟩ := tidy.awaited other member
  exact ⟨conversion, List.mem_append_left begun pending, facts⟩

/-- Whoever was known to wait has looked for rates, also after another has. -/
private theorem Tidy.awaited_lookedWith (tidy : before.Tidy number)
    (conversion : PendingConversion) {read : RateRead}
    (looks : read ≠ .requested) {task : TaskId}
    (waits : task ∈ before.rates.waiters) :
    ∃ other ∈ before.conversions.map (conversion.lookedWith read),
      other.task = task ∧ other.read ≠ .requested := by
  obtain ⟨other, pending, rfl, looked⟩ := tidy.awaited task waits
  refine ⟨conversion.lookedWith read other, List.mem_map_of_mem pending,
    conversion.task_lookedWith read other, ?_⟩
  unfold PendingConversion.lookedWith
  split
  · exact looks
  · exact looked

private theorem Tidy.looked (tidy : before.Tidy number)
    {conversion : PendingConversion} {read : RateRead}
    (pending : conversion ∈ before.conversions)
    (requested : conversion.read = .requested) (looks : read ≠ .requested)
    (submissions :
      after.submissions.map (·.task) = before.submissions.map (·.task))
    (conversions :
      after.conversions =
        before.conversions.map (conversion.lookedWith read))
    (waiters :
      after.rates.waiters = before.rates.waiters ∨
        after.rates.waiters =
          before.rates.waiters ++ [conversion.task]) :
    after.Tidy (number + 1) := by
  have sameTasks :=
    tasks_map (conversion.task_lookedWith read) submissions conversions
  obtain ⟨distinct, earlier⟩ :=
    tidy.tasks_of_sublist (by rw [sameTasks])
  rcases waiters with same | joined
  · refine ⟨distinct, earlier, same ▸ tidy.single, ?_⟩
    rw [same, conversions]
    exact fun task => tidy.awaited_lookedWith conversion looks
  · have unawaited := tidy.not_mem_waiters pending requested
    refine ⟨distinct, earlier, ?_, ?_⟩
    · rw [joined]
      exact List.nodup_append_comm.mp
        (List.nodup_cons.mpr ⟨unawaited, tidy.single⟩)
    · rw [joined, conversions, List.forall_mem_append,
        List.forall_mem_singleton]
      refine ⟨fun task => tidy.awaited_lookedWith conversion looks,
        conversion.lookedWith read conversion, List.mem_map_of_mem pending,
        conversion.task_lookedWith read conversion, ?_⟩
      simpa [PendingConversion.lookedWith] using looks

private theorem Tidy.ended (tidy : before.Tidy number) {task : TaskId}
    (submissions :
      after.submissions.map (·.task) = before.submissions.map (·.task))
    (conversions :
      after.conversions = before.conversions.filter (·.task != task))
    (waiters : after.rates.waiters = before.rates.waiters.erase task) :
    after.Tidy (number + 1) := by
  have fewer : after.tasks.Sublist before.tasks := by
    unfold tasks
    rw [submissions, conversions]
    exact List.Sublist.append_left
      (List.Sublist.map _ List.filter_sublist) _
  obtain ⟨distinct, earlier⟩ := tidy.tasks_of_sublist fewer
  refine ⟨distinct, earlier, waiters ▸ tidy.single.erase task, ?_⟩
  rw [waiters, conversions]
  intro other member
  obtain ⟨conversion, pending, rfl, looked⟩ :=
    tidy.awaited other (List.mem_of_mem_erase member)
  refine ⟨conversion, ?_, rfl, looked⟩
  rw [List.mem_filter]
  refine ⟨pending, ?_⟩
  simpa using (tidy.single.mem_erase_iff.mp member).1

/-- Every move leaves an engine tidy. -/
theorem Tidy.of_moves (tidy : before.Tidy number)
    (moves : Moves number before after) :
    after.Tidy (number + 1) := by
  cases moves with
  | changed change sameTask _ looked submissions conversions waiters =>
      exact tidy.changed sameTask looked submissions conversions waiters
  | submitted submissions conversions waiters =>
      exact tidy.submitted submissions conversions waiters
  | turned task begun turn own atMostOne conversions waiters =>
      exact tidy.turned turn own atMostOne conversions waiters
  | looked conversion read pending requested looks submissions conversions
      waiters =>
      exact tidy.looked pending requested looks submissions conversions waiters
  | ended task submissions conversions waiters =>
      exact tidy.ended submissions conversions waiters

theorem Tidy.runFrom
    (actions : List Action) {engine : Engine} {number : TaskId}
    (tidy : engine.Tidy number) :
    (engine.runFrom number actions).Tidy (number + actions.length) :=
  runFrom_induction
    (fun engine number action tidy =>
      tidy.of_moves (moves_perform engine number action))
    actions tidy

/-! ## Tasks that had their turn -/

/-- Where a pending conversion comes from: it was pending before, or its task
had its turn. -/
theorem Moves.origin (moves : Moves number before after)
    (tidy : before.Tidy number) {conversion : PendingConversion}
    (pending : conversion ∈ after.conversions) :
    (∃ earlier ∈ before.conversions, earlier.task = conversion.task ∧
        (earlier.isGivenUp = true → conversion.isGivenUp = true)) ∨
      conversion.task = number ∨
        ∃ submission ∈ before.submissions,
          submission.task = conversion.task := by
  cases moves with
  | changed change sameTask givenUp _ _ conversions _ =>
      rw [conversions] at pending
      obtain ⟨earlier, member, rfl⟩ := List.mem_map.mp pending
      exact .inl ⟨earlier, member, (sameTask earlier).symm, givenUp earlier⟩
  | submitted _ conversions _ =>
      rw [conversions] at pending
      exact .inl ⟨conversion, pending, rfl, id⟩
  | turned task begun turn own _ conversions _ =>
      rw [conversions] at pending
      rcases List.mem_append.mp pending with old | new
      · exact .inl ⟨conversion, old, rfl, id⟩
      · right
        rw [(own conversion new).1]
        rcases turn with first | ⟨same, _⟩
        · have waited : task ∈ before.submissions.map (·.task) := by
            rw [first]
            exact List.mem_cons_self
          exact .inr (List.mem_map.mp waited)
        · exact .inl same
  | looked other read otherPending requested _ _ conversions _ =>
      rw [conversions] at pending
      obtain ⟨earlier, member, rfl⟩ := List.mem_map.mp pending
      refine .inl ⟨earlier, member,
        (other.task_lookedWith read earlier).symm, ?_⟩
      intro givenUp
      have different : earlier.task ≠ other.task := by
        intro sameTask
        have same : earlier = other :=
          List.inj_on_of_nodup_map tidy.distinct_conversions member
            otherPending sameTask
        rw [same] at givenUp
        exact PendingConversion.read_ne_requested_of_isGivenUp givenUp
          requested
      rw [PendingConversion.lookedWith, if_neg different]
      exact givenUp
  | ended task _ conversions _ =>
      rw [conversions] at pending
      exact .inl ⟨conversion, (List.mem_filter.mp pending).1, rfl, id⟩

/-- A task that had its turn, and of which at most a conversion is left that
will end without an effect. -/
structure GivenUp (number task : TaskId) (engine : Engine) : Prop where
  tidy : engine.Tidy number
  earlier : task < number
  begun : ∀ submission ∈ engine.submissions, submission.task ≠ task
  givenUp :
    ∀ conversion ∈ engine.conversions, conversion.task = task →
      conversion.isGivenUp = true

/-- A task of which nothing is left. -/
structure Over (number task : TaskId) (engine : Engine) : Prop
    extends GivenUp number task engine where
  ended : ∀ conversion ∈ engine.conversions, conversion.task ≠ task

variable {task : TaskId} {engine : Engine}

private theorem GivenUp.begun_perform
    (left : engine.GivenUp number task) (action : Action) :
    ∀ submission ∈ (engine.perform number action).submissions,
      submission.task ≠ task := by
  rintro submission member rfl
  rcases submission_of_mem_perform member with
    ⟨new, _⟩ | ⟨earlier, waited, sameTask, _⟩
  · exact Nat.lt_irrefl _ (new ▸ left.earlier)
  · exact left.begun earlier waited sameTask

/-- What is pending of a task that had its turn was pending before. -/
private theorem GivenUp.origin (left : engine.GivenUp number task)
    (action : Action) {conversion : PendingConversion}
    (pending : conversion ∈ (engine.perform number action).conversions)
    (own : conversion.task = task) :
    ∃ earlier ∈ engine.conversions, earlier.task = task ∧
      (earlier.isGivenUp = true → conversion.isGivenUp = true) := by
  have moves := moves_perform engine number action
  rw [← own]
  rcases moves.origin left.tidy pending with old | new | turn
  · exact old
  · exact absurd (new ▸ own ▸ left.earlier) (Nat.lt_irrefl _)
  · obtain ⟨submission, waited, sameTask⟩ := turn
    exact absurd (sameTask.trans own) (left.begun submission waited)

theorem GivenUp.perform (left : engine.GivenUp number task)
    (action : Action) :
    (engine.perform number action).GivenUp (number + 1) task := by
  refine ⟨left.tidy.of_moves (moves_perform engine number action),
    Nat.lt_succ_of_lt left.earlier, left.begun_perform action, ?_⟩
  intro conversion pending own
  obtain ⟨earlier, member, sameTask, kept⟩ :=
    left.origin action pending own
  exact kept (left.givenUp earlier member sameTask)

theorem Over.perform (gone : engine.Over number task)
    (action : Action) :
    (engine.perform number action).Over (number + 1) task := by
  refine ⟨gone.toGivenUp.perform action, ?_⟩
  intro conversion pending own
  obtain ⟨earlier, member, sameTask, _⟩ :=
    gone.toGivenUp.origin action pending own
  exact gone.ended earlier member sameTask

theorem GivenUp.runFrom (actions : List Action)
    (left : engine.GivenUp number task) :
    (engine.runFrom number actions).GivenUp
      (number + actions.length) task :=
  runFrom_induction
    (motive := fun number engine => engine.GivenUp number task)
    (fun _ _ action left => left.perform action) actions left

theorem Over.runFrom (actions : List Action)
    (gone : engine.Over number task) :
    (engine.runFrom number actions).Over
      (number + actions.length) task :=
  runFrom_induction
    (motive := fun number engine => engine.Over number task)
    (fun _ _ action gone => gone.perform action) actions gone

/-- Nothing of the task is pending, and the signal of rates does not know it to
wait. -/
theorem Over.conversionOf?_eq_none (gone : engine.Over number task) :
    engine.conversionOf? task = none ∧ task ∉ engine.rates.waiters := by
  constructor
  · refine List.find?_eq_none.mpr fun conversion member => ?_
    simpa using gone.ended conversion member
  · intro waits
    obtain ⟨conversion, member, own, _⟩ := gone.tidy.awaited task waits
    exact gone.ended conversion member own

end Engine

end CurrencyPad
