import CurrencyPad.Proofs.Engine.Order

/-!
# Waiting for rates

A conversion looks for rates, waits for the first ones if none are known, and
ends with those that it received.  New rates reach all that wait.  Each of these
is one happening on the desk, whichever other conversions are pending.
-/

namespace CurrencyPad.Engine

theorem exists_split_of_conversionOf? {engine : Engine} {task : TaskId}
    {conversion : PendingConversion}
    (found : engine.conversionOf? task = some conversion) :
    conversion.task = task ∧
      ∃ before after, engine.conversions = before ++ conversion :: after := by
  unfold conversionOf? at found
  have sameTask := List.find?_some found
  exact ⟨by simpa using sameTask,
    List.append_of_mem (List.mem_of_find?_eq_some found)⟩

variable {before after : List PendingConversion}
  {conversion : PendingConversion}

private theorem other_task_of_nodup
    (distinct :
      ((before ++ conversion :: after).map (·.task)).Nodup) :
    ∀ other ∈ before ++ after, other.task ≠ conversion.task := by
  have moved :
      ((before ++ conversion :: after).map (·.task)).Perm
        (conversion.task :: (before ++ after).map (·.task)) :=
    List.perm_middle.map PendingConversion.task
  have fresh := (List.nodup_cons.mp (moved.nodup_iff.mp distinct)).1
  intro other member same
  apply fresh
  rw [← same]
  exact List.mem_map_of_mem member

private theorem conversions_setConversion {engine : Engine}
    (pending : engine.conversions = before ++ conversion :: after)
    (distinct : (engine.conversions.map (·.task)).Nodup)
    {changed : PendingConversion}
    (sameTask : changed.task = conversion.task) :
    (engine.setConversion changed).conversions =
      before ++ changed :: after := by
  rw [pending] at distinct
  have others := other_task_of_nodup distinct
  have kept : ∀ conversions : List PendingConversion,
      (∀ other ∈ conversions, other.task ≠ conversion.task) →
        (conversions.map fun other =>
          if other.task = changed.task then changed else other) =
            conversions := by
    intro conversions unlike
    refine Eq.trans ?_ (List.map_id conversions)
    apply List.map_congr_left
    intro other member
    rw [sameTask, if_neg (unlike other member)]
    rfl
  unfold setConversion
  dsimp only
  rw [pending, List.map_append, List.map_cons,
    kept before fun other member =>
      others other (List.mem_append_left _ member),
    kept after fun other member =>
      others other (List.mem_append_right _ member),
    if_pos sameTask.symm]

private theorem conversions_dropConversion {engine : Engine}
    (pending : engine.conversions = before ++ conversion :: after)
    (distinct : (engine.conversions.map (·.task)).Nodup) :
    (engine.dropConversion conversion.task).conversions =
      before ++ after := by
  rw [pending] at distinct
  have others := other_task_of_nodup distinct
  have kept : ∀ conversions : List PendingConversion,
      (∀ other ∈ conversions, other.task ≠ conversion.task) →
        conversions.filter (·.task != conversion.task) =
          conversions := by
    intro conversions unlike
    rw [List.filter_eq_self]
    intro other member
    simpa using unlike other member
  unfold dropConversion
  dsimp only
  rw [pending, List.filter_append, List.filter_cons,
    kept before fun other member =>
      others other (List.mem_append_left _ member),
    kept after fun other member =>
      others other (List.mem_append_right _ member)]
  simp

def ratesSeenBy (engine : Engine) (task : TaskId) : RatesCell :=
  match engine.rates.value with
  | some _ => engine.rates
  | none => engine.rates.await task

private theorem value_ratesSeenBy (engine : Engine) (task : TaskId) :
    (engine.ratesSeenBy task).value = engine.rates.value := by
  unfold ratesSeenBy
  split <;> rfl

private theorem sound_ratesSeenBy {engine : Engine} (task : TaskId)
    (sound : conversion.Sound engine.rates.waiters) :
    conversion.Sound (engine.ratesSeenBy task).waiters := by
  unfold ratesSeenBy
  split
  · exact sound
  · unfold PendingConversion.Sound at sound ⊢
    split
    case h_2 waits =>
      rw [waits] at sound
      exact List.mem_append_left _ sound
    all_goals
      simp_all

/-- A conversion that looks for rates receives those that are known, or is
waited for. -/
theorem look_of_requested {engine : Engine}
    (requested : conversion.read = .requested)
    (known : engine.rates.value ≠ some none) :
    engine.look conversion =
      ({ engine with rates := engine.ratesSeenBy conversion.task }
        : Engine).setConversion
          (conversion.looking engine.rates.value.join) := by
  unfold look PendingConversion.looking ratesSeenBy
  rw [requested]
  cases value : engine.rates.value with
  | none =>
      rfl
  | some rates =>
      cases rates with
      | none =>
          exact absurd value known
      | some rates =>
          rfl

private theorem sound_looking {engine : Engine}
    (known : engine.rates.value ≠ some none) :
    (conversion.looking engine.rates.value.join).Sound
      (engine.ratesSeenBy conversion.task).waiters := by
  unfold PendingConversion.looking ratesSeenBy
  cases value : engine.rates.value with
  | none =>
      exact List.mem_append_right _ List.mem_cons_self
  | some rates =>
      cases rates with
      | none =>
          exact absurd value known
      | some rates =>
          rfl

private theorem conversions_distinct {number : TaskId} {engine : Engine}
    (orderly : engine.Orderly number) :
    (engine.conversions.map (·.task)).Nodup :=
  (List.nodup_append.mp orderly.distinct).2.1

section Look

variable {number : TaskId} {engine : Engine}

/-- A conversion that looks for rates keeps its place among the others. -/
private theorem Orderly.conversions_look (orderly : engine.Orderly number)
    (pending : engine.conversions = before ++ conversion :: after)
    (requested : conversion.read = .requested) :
    (engine.look conversion).conversions =
      before ++ conversion.looking engine.rates.value.join :: after := by
  rw [look_of_requested requested orderly.known]
  exact conversions_setConversion pending (conversions_distinct orderly)
    (congrArg Capture.task (PendingConversion.capture_looking _ conversion))

private theorem Orderly.rates_look (orderly : engine.Orderly number)
    (requested : conversion.read = .requested) :
    (engine.look conversion).rates = engine.ratesSeenBy conversion.task := by
  rw [look_of_requested requested orderly.known]
  rfl

private theorem submissions_of_look (conversion : PendingConversion) :
    (engine.look conversion).submissions = engine.submissions := by
  unfold look
  split <;> rfl

private theorem Orderly.desk_look (orderly : engine.Orderly number)
    (pending : engine.conversions = before ++ conversion :: after)
    (requested : conversion.read = .requested) :
    (engine.look conversion).desk =
      { engine.desk with
        conversions :=
          before ++ conversion.looking engine.desk.rates :: after } := by
  have made :
      (engine.look conversion).desk =
        ⟨(engine.look conversion).entry,
          (engine.look conversion).rates.value.join,
          (engine.look conversion).submissions.map fun submission =>
            (submission.task, submission.event),
          (engine.look conversion).conversions⟩ := rfl
  rw [made, orderly.conversions_look pending requested,
    submissions_of_look conversion, orderly.rates_look requested,
    value_ratesSeenBy, look_of_requested requested orderly.known]
  rfl

/-- Whoever waits for rates is waited for, also after another has looked. -/
private theorem Orderly.sound_look (orderly : engine.Orderly number)
    (pending : engine.conversions = before ++ conversion :: after)
    (requested : conversion.read = .requested) :
    ∀ other ∈ (engine.look conversion).conversions,
      other.Sound (engine.look conversion).rates.waiters := by
  rw [orderly.conversions_look pending requested, orderly.rates_look requested]
  have kept : ∀ other ∈ before ++ after,
      other.Sound (engine.ratesSeenBy conversion.task).waiters := by
    intro other member
    apply sound_ratesSeenBy
    apply orderly.sound
    rw [pending]
    exact (List.Sublist.append_left
      (List.sublist_cons_self conversion after) before).mem member
  intro other member
  rcases List.mem_append.mp member with early | here
  · exact kept other (List.mem_append_left _ early)
  · rcases List.mem_cons.mp here with rfl | late
    · exact sound_looking orderly.known
    · exact kept other (List.mem_append_right _ late)

private theorem Orderly.look_of_requested (orderly : engine.Orderly number)
    (requested : conversion.read = .requested)
    (pending : engine.conversions = before ++ conversion :: after) :
    Desk.Step engine.config engine.desk (.looked conversion.task)
        (engine.look conversion).desk ∧
      (engine.look conversion).Orderly number := by
  have looks := Engine.look_of_requested requested orderly.known
  have tasksNext : (engine.look conversion).tasks = engine.tasks := by
    unfold tasks
    rw [map_task_look, submissions_of_look conversion]
  refine ⟨?_, ?_, ?_, ?_, ?_, ?_, ?_, orderly.sound_look pending requested⟩
  · rw [orderly.desk_look pending requested]
    exact .look engine.desk pending requested
  · rw [looks]
    exact orderly.undisposed
  · rw [looks]
    exact orderly.startable
  · rw [tasksNext]
    exact orderly.distinct
  · rw [tasksNext]
    exact orderly.earlier
  · rw [submissions_of_look conversion]
    exact orderly.uncancelled
  · rw [orderly.rates_look requested, value_ratesSeenBy]
    exact orderly.known

/-- A conversion that has looked for rates before does nothing. -/
private theorem look_of_not_requested (engine : Engine)
    (looked : conversion.read ≠ .requested) :
    engine.look conversion = engine ∧ conversion.lookout = .nothing := by
  unfold Engine.look PendingConversion.lookout
  cases read : conversion.read with
  | requested =>
      exact absurd read looked
  | _ =>
      exact ⟨rfl, rfl⟩

theorem Orderly.look (orderly : engine.Orderly number) {task : TaskId}
    (found : engine.conversionOf? task = some conversion) :
    Desk.Step engine.config engine.desk
        (engine.happening number (.look task))
        (engine.look conversion).desk ∧
      (engine.look conversion).Orderly number := by
  have happens :
      engine.happening number (.look task) = conversion.lookout := by
    simp only [happening, found, Option.elim]
  rw [happens]
  by_cases requested : conversion.read = .requested
  · obtain ⟨_, before, after, pending⟩ :=
      exists_split_of_conversionOf? found
    have looks : conversion.lookout = .looked conversion.task := by
      simp only [PendingConversion.lookout, requested]
    rw [looks]
    exact orderly.look_of_requested requested pending
  · obtain ⟨still, nothing⟩ := look_of_not_requested engine requested
    rw [still, nothing]
    exact ⟨.nothing engine.desk, orderly⟩

end Look

private theorem sound_forget {waiters : List TaskId} {dropped : TaskId}
    (sound : conversion.Sound waiters)
    (other : conversion.task ≠ dropped) :
    conversion.Sound (waiters.erase dropped) := by
  unfold PendingConversion.Sound at sound ⊢
  split
  case h_2 waits =>
    rw [waits] at sound
    exact (List.mem_erase_of_ne other).mpr sound
  all_goals
    simp_all

private theorem Orderly.dropConversion {number : TaskId} {engine : Engine}
    (orderly : engine.Orderly number)
    (pending : engine.conversions = before ++ conversion :: after) :
    (engine.dropConversion conversion.task).desk =
        { engine.desk with conversions := before ++ after } ∧
      (engine.dropConversion conversion.task).Orderly number := by
  have distinct := conversions_distinct orderly
  have conversionsNext :=
    conversions_dropConversion pending distinct
  have dropped :
      (engine.dropConversion conversion.task).tasks.Sublist
        engine.tasks := by
    unfold tasks
    rw [conversionsNext, pending]
    refine List.Sublist.append_left (List.Sublist.map _ ?_) _
    exact List.Sublist.append_left (List.sublist_cons_self _ _) before
  rw [pending] at distinct
  have others := other_task_of_nodup distinct
  refine ⟨?_, orderly.undisposed, orderly.startable,
    dropped.nodup orderly.distinct,
    fun task member => orderly.earlier task (dropped.mem member),
    orderly.uncancelled, orderly.known, ?_⟩
  · rw [← conversionsNext]
    rfl
  · intro other member
    rw [conversionsNext] at member
    refine sound_forget (orderly.sound other ?_) (others other member)
    rw [pending]
    exact (List.Sublist.append_left
      (List.sublist_cons_self conversion after) before).mem member

theorem Orderly.complete {number : TaskId} {engine : Engine}
    (orderly : engine.Orderly number) {task : TaskId}
    (found : engine.conversionOf? task = some conversion) :
    Desk.Step engine.config engine.desk
        (engine.happening number (.complete task))
        (engine.complete conversion).desk ∧
      (engine.complete conversion).Orderly number := by
  obtain ⟨_, before, after, pending⟩ :=
    exists_split_of_conversionOf? found
  have happens :
      engine.happening number (.complete task) = conversion.ending := by
    simp only [happening, found, Option.elim]
  rw [happens]
  unfold PendingConversion.ending Engine.complete
  have sound : conversion.Sound engine.rates.waiters := by
    apply orderly.sound
    rw [pending]
    exact List.mem_append_right _ List.mem_cons_self
  unfold PendingConversion.Sound at sound
  cases read : conversion.read with
  | requested =>
      exact ⟨.nothing engine.desk, orderly⟩
  | waiting =>
      exact ⟨.nothing engine.desk, orderly⟩
  | abandoned =>
      rw [read] at sound
      exact sound.elim
  | cancelled =>
      rw [read] at sound
      exact sound.elim
  | received rates =>
      cases rates with
      | none =>
          rw [read] at sound
          cases sound
      | some rates =>
          obtain ⟨dropped, orderlyDropped⟩ := orderly.dropConversion pending
          have sameFrame :=
            frame_convert (engine.dropConversion conversion.task) conversion
              rates
          have after :
              (finishWith conversion.task
                  ((engine.dropConversion conversion.task).convert conversion
                    rates)).desk =
                { engine.desk with
                  entry :=
                    engine.desk.entry.select conversion.target
                      (Entry.convertedText? engine.config rates
                        conversion.source conversion.target
                        conversion.amount)
                  conversions := before ++ after } := by
            change
              ((engine.dropConversion conversion.task).convert conversion
                rates).1.desk = _
            rw [desk_of_frame_eq sameFrame, entry_convert, dropped]
            rfl
          have converted := orderlyDropped.of_frame_eq sameFrame
          refine ⟨?_, converted.of_ledger_eq rfl⟩
          rw [after]
          exact .convert engine.desk pending read

private theorem receive_eq_told {waiters : List TaskId} (rates : Snapshot)
    (sound : conversion.Sound waiters) :
    conversion.receive (some rates) waiters = conversion.told rates := by
  unfold PendingConversion.receive PendingConversion.told
  unfold PendingConversion.Sound at sound
  cases read : conversion.read with
  | waiting =>
      rw [read] at sound
      have waited : waiters.contains conversion.task = true := by
        simpa using sound
      simp only [waited, if_true]
  | _ =>
      rfl

private theorem sound_told {waiters : List TaskId} (rates : Snapshot)
    (sound : conversion.Sound waiters) :
    (conversion.told rates).Sound [] := by
  unfold PendingConversion.told
  unfold PendingConversion.Sound at sound
  cases read : conversion.read with
  | waiting =>
      rfl
  | _ =>
      simp_all [PendingConversion.Sound]

theorem Orderly.receiving {number : TaskId} {engine : Engine}
    (orderly : engine.Orderly number) (rates : Snapshot) :
    (engine.receiving rates).desk =
        { engine.desk with
          rates := some rates
          conversions := engine.desk.conversions.map (·.told rates) } ∧
      (engine.receiving rates).Orderly number := by
  have conversionsNext :
      (engine.receiving rates).conversions =
        engine.conversions.map (·.told rates) :=
    List.map_congr_left fun conversion member =>
      receive_eq_told rates (orderly.sound conversion member)
  have tasksNext : (engine.receiving rates).tasks = engine.tasks := by
    unfold tasks
    rw [conversionsNext, List.map_map]
    congr 1
    apply List.map_congr_left
    intro conversion _
    exact congrArg Capture.task
      (PendingConversion.capture_told rates conversion)
  refine ⟨?_, orderly.undisposed, orderly.startable, ?_, ?_,
    orderly.uncancelled, nofun, ?_⟩
  · have made :
        (engine.receiving rates).desk =
          { engine.desk with
            rates := some rates
            conversions := (engine.receiving rates).conversions } := rfl
    rw [made, conversionsNext]
    rfl
  · rw [tasksNext]
    exact orderly.distinct
  · rw [tasksNext]
    exact orderly.earlier
  · intro conversion member
    rw [conversionsNext] at member
    obtain ⟨before, pending, rfl⟩ := List.mem_map.mp member
    exact sound_told rates (orderly.sound before pending)

theorem Orderly.setRates {number : TaskId} {engine : Engine}
    (orderly : engine.Orderly number) (rates : Snapshot) :
    Desk.Step engine.config engine.desk
        (engine.happening number (.setRates rates))
        (engine.setRates (some rates)).1.desk ∧
      (engine.setRates (some rates)).1.Orderly number := by
  cases changed : engine.rates.change? (some rates) with
  | none =>
      have happens :
          engine.happening number (.setRates rates) = .nothing := by
        simp only [happening, changed]
      rw [happens, setRates_of_unchanged changed]
      exact ⟨.nothing engine.desk, orderly⟩
  | some cell =>
      have happens :
          engine.happening number (.setRates rates) = .told rates := by
        simp only [happening, changed]
      obtain ⟨receivingDesk, receiving⟩ := orderly.receiving rates
      obtain ⟨sameEntry, sameFrame⟩ :=
        (telling_rates rates).entry_frame_tellAll engine.rates.listeners
          (engine.receiving rates)
      rw [happens, setRates_of_changed changed]
      refine ⟨?_, receiving.of_frame_eq sameFrame⟩
      rw [desk_of_frame_eq sameFrame, sameEntry, receivingDesk]
      exact .tell engine.desk rates

theorem Orderly.setBase {number : TaskId} {engine : Engine}
    (orderly : engine.Orderly number) (base : Text) :
    (engine.setBase (some base)).1.desk = engine.desk ∧
      (engine.setBase (some base)).1.Orderly number := by
  cases changed : engine.base.change? (some base) with
  | none =>
      rw [setBase_of_unchanged changed]
      exact ⟨rfl, orderly⟩
  | some cell =>
      have rebased : (engine.rebased base).Orderly number :=
        orderly.of_ledger_eq rfl
      obtain ⟨sameEntry, sameFrame⟩ :=
        (telling_base base).entry_frame_tellAll engine.base.listeners
          (engine.rebased base)
      rw [setBase_of_changed changed]
      refine ⟨?_, rebased.of_frame_eq sameFrame⟩
      rw [desk_of_frame_eq sameFrame, sameEntry]
      rfl

end CurrencyPad.Engine
