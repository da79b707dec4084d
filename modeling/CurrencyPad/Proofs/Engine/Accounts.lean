import CurrencyPad.Proofs.Engine.Deeds

/-!
# Accounts of a run

The history of a run accounts for the events that were handed in.  Each of them
has its turn at most once, what is converted was noted at such a turn and is
converted at most once, and a task that is cancelled or given up by disposal has
no deed any more.
-/

namespace CurrencyPad

def turnsAmong (deeds : List Deed) : List (TaskId × Event) :=
  deeds.flatMap (·.happening.turns)

/-- What is noted to be converted. -/
def capturesAmong (deeds : List Deed) : List Capture :=
  deeds.flatMap (·.happening.captures)

/-- What is converted. -/
def conversionsAmong (deeds : List Deed) : List Capture :=
  deeds.flatMap (·.happening.conversions)

theorem turnsAmong_concat (deeds : List Deed) (last : Deed) :
    turnsAmong (deeds ++ [last]) =
      turnsAmong deeds ++ last.happening.turns := by
  rw [turnsAmong, List.flatMap_append, List.flatMap_singleton, turnsAmong]

theorem capturesAmong_concat (deeds : List Deed) (last : Deed) :
    capturesAmong (deeds ++ [last]) =
      capturesAmong deeds ++ last.happening.captures := by
  rw [capturesAmong, List.flatMap_append, List.flatMap_singleton,
    capturesAmong]

theorem conversionsAmong_concat (deeds : List Deed) (last : Deed) :
    conversionsAmong (deeds ++ [last]) =
      conversionsAmong deeds ++ last.happening.conversions := by
  rw [conversionsAmong, List.flatMap_append, List.flatMap_singleton,
    conversionsAmong]

namespace Happening

theorem turns_nodup (happening : Happening) :
    (happening.turns.map (·.1)).Nodup := by
  cases happening <;> simp [turns]

theorem conversions_nodup (happening : Happening) :
    (happening.conversions.map Capture.task).Nodup := by
  cases happening <;> simp [conversions]

end Happening

/-- An action hands in an event, whose task has the number of the action. -/
def HandedIn (actions : List Action) (turn : TaskId × Event) : Prop :=
  (actions[turn.1]?).bind Action.event? = some turn.2

theorem HandedIn.append {actions : List Action} {turn : TaskId × Event}
    (handedIn : HandedIn actions turn) (rest : List Action) :
    HandedIn (actions ++ rest) turn := by
  obtain ⟨action, found, announces⟩ := Option.bind_eq_some_iff.mp handedIn
  obtain ⟨inside, _⟩ := List.getElem?_eq_some_iff.mp found
  rw [HandedIn, List.getElem?_append_left inside]
  exact handedIn

theorem handedIn_last (actions : List Action) {action : Action}
    {event : Event} (announces : action.event? = some event) :
    HandedIn (actions ++ [action]) (actions.length, event) := by
  rw [HandedIn, List.getElem?_concat_length]
  exact announces

namespace Engine

/-- How the deeds of a run and what is left to do account for the events that
were handed in. -/
structure Accounts (actions : List Action) (deeds : List Deed)
    (engine : Engine) : Prop where
  tidy : engine.Tidy actions.length
  waiting : ∀ submission ∈ engine.submissions,
    HandedIn actions (submission.task, submission.event)
  turned : ∀ turn ∈ turnsAmong deeds,
    HandedIn actions turn ∧ turn.1 < actions.length ∧
      ∀ submission ∈ engine.submissions, submission.task ≠ turn.1
  once : ((turnsAmong deeds).map (·.1)).Nodup
  pending : ∀ conversion ∈ engine.conversions,
    conversion.capture ∈ capturesAmong deeds
  converted : ∀ capture ∈ conversionsAmong deeds,
    engine.Over actions.length capture.task
  convertedOnce : ((conversionsAmong deeds).map Capture.task).Nodup

variable {engine : Engine} {actions : List Action} {deeds : List Deed}

theorem new_accounts (config : Config) (rates : Option (Option Snapshot))
    (base : Option (Option Text)) :
    Accounts [] [] (new config rates base) :=
  ⟨new_tidy config rates base, nofun, nofun, List.nodup_nil, nofun, nofun,
    List.nodup_nil⟩

namespace Accounts

variable (accounts : Accounts actions deeds engine) (action : Action)
include accounts

theorem waiting_perform :
    ∀ submission ∈ (engine.perform actions.length action).submissions,
      HandedIn (actions ++ [action]) (submission.task, submission.event) := by
  intro submission member
  rcases submission_of_mem_perform member with
    ⟨own, announced⟩ | ⟨earlier, waited, sameTask, sameEvent, _⟩
  · rw [own]
    exact handedIn_last actions announced
  · rw [← sameTask, ← sameEvent]
    exact (accounts.waiting earlier waited).append [action]

/-- An event that has its turn had none before. -/
theorem of_mem_turns {turn : TaskId × Event}
    (member : turn ∈ (engine.deed actions.length action).turns) :
    HandedIn (actions ++ [action]) turn ∧
      turn.1 < actions.length + 1 ∧
      turn.1 ∉ (turnsAmong deeds).map (·.1) := by
  obtain ⟨source, _⟩ := accounts.tidy.of_mem_turns member
  rcases source with ⟨own, announced⟩ | ⟨submission, waits, rfl⟩
  · obtain ⟨task, event⟩ := turn
    change task = actions.length at own
    subst own
    refine ⟨handedIn_last actions announced, Nat.lt_succ_self _, ?_⟩
    intro before
    obtain ⟨other, turned, same⟩ := List.mem_map.mp before
    exact absurd (same ▸ (accounts.turned other turned).2.1)
      (Nat.lt_irrefl _)
  · have known : submission.task ∈ engine.tasks :=
      List.mem_append_left _ (List.mem_map_of_mem waits)
    refine ⟨(accounts.waiting submission waits).append [action],
      Nat.lt_succ_of_lt (accounts.tidy.earlier _ known), ?_⟩
    intro before
    obtain ⟨other, turned, same⟩ := List.mem_map.mp before
    exact (accounts.turned other turned).2.2 submission waits same.symm

theorem turned_perform :
    ∀ turn ∈ turnsAmong deeds ++ (engine.deed actions.length action).turns,
      HandedIn (actions ++ [action]) turn ∧ turn.1 < actions.length + 1 ∧
        ∀ submission ∈ (engine.perform actions.length action).submissions,
          submission.task ≠ turn.1 := by
  intro turn member
  rcases List.mem_append.mp member with old | new
  · obtain ⟨handedIn, earlier, begun⟩ := accounts.turned turn old
    refine ⟨handedIn.append [action], Nat.lt_succ_of_lt earlier, ?_⟩
    intro submission waits same
    rcases submission_of_mem_perform waits with
      ⟨own, _⟩ | ⟨before, waited, sameTask, _⟩
    · rw [← same, own] at earlier
      exact Nat.lt_irrefl _ earlier
    · exact begun before waited (sameTask.trans same)
  · obtain ⟨handedIn, earlier, _⟩ := accounts.of_mem_turns action new
    exact ⟨handedIn, earlier, (accounts.tidy.of_mem_turns new).2⟩

theorem once_perform :
    ((turnsAmong deeds ++
      (engine.deed actions.length action).turns).map (·.1)).Nodup := by
  rw [List.map_append]
  refine List.nodup_append.mpr
    ⟨accounts.once, Happening.turns_nodup _, ?_⟩
  rintro task before _ now rfl
  obtain ⟨turn, new, rfl⟩ := List.mem_map.mp now
  exact (accounts.of_mem_turns action new).2.2 before

theorem pending_perform :
    ∀ conversion ∈ (engine.perform actions.length action).conversions,
      conversion.capture ∈ capturesAmong deeds ++
        (engine.deed actions.length action).captures := by
  intro conversion member
  rcases conversion_of_mem_perform member with
    noted | ⟨earlier, pending, same, _⟩
  · rw [noted]
    exact List.mem_append_right _ List.mem_cons_self
  · rw [← same]
    exact List.mem_append_left _ (accounts.pending earlier pending)

/-- What is converted was noted before. -/
theorem noted {capture : Capture}
    (member :
      capture ∈ (engine.deed actions.length action).conversions) :
    capture ∈ capturesAmong deeds := by
  obtain ⟨⟨conversion, pending, rfl⟩, _⟩ :=
    accounts.tidy.of_mem_conversions member
  exact accounts.pending conversion pending

theorem converted_perform :
    ∀ capture ∈ conversionsAmong deeds ++
        (engine.deed actions.length action).conversions,
      (engine.perform actions.length action).Over (actions.length + 1)
        capture.task := by
  intro capture member
  rcases List.mem_append.mp member with old | new
  · exact (accounts.converted capture old).perform action
  · exact (accounts.tidy.of_mem_conversions new).2

theorem convertedOnce_perform :
    ((conversionsAmong deeds ++
      (engine.deed actions.length action).conversions).map
        Capture.task).Nodup := by
  rw [List.map_append]
  refine List.nodup_append.mpr
    ⟨accounts.convertedOnce, Happening.conversions_nodup _, ?_⟩
  rintro task before _ now rfl
  -- Nothing is left of what was converted before, and what is converted now was
  -- pending.
  obtain ⟨old, member, same⟩ := List.mem_map.mp before
  obtain ⟨capture, new, rfl⟩ := List.mem_map.mp now
  obtain ⟨⟨conversion, pending, rfl⟩, _⟩ :=
    accounts.tidy.of_mem_conversions new
  exact (accounts.converted old member).ended conversion pending same.symm

theorem concat :
    Accounts (actions ++ [action])
      (deeds ++ [⟨engine.entry, engine.deed actions.length action⟩])
      (engine.perform actions.length action) := by
  have longer : (actions ++ [action]).length = actions.length + 1 :=
    List.length_append
  constructor
  · rw [longer]
    exact accounts.tidy.of_moves (moves_perform engine _ action)
  · exact accounts.waiting_perform action
  · rw [turnsAmong_concat, longer]
    exact accounts.turned_perform action
  · rw [turnsAmong_concat]
    exact accounts.once_perform action
  · rw [capturesAmong_concat]
    exact accounts.pending_perform action
  · rw [conversionsAmong_concat, longer]
    exact accounts.converted_perform action
  · rw [conversionsAmong_concat]
    exact accounts.convertedOnce_perform action

end Accounts

theorem history_concat (engine : Engine) (actions : List Action)
    (action : Action) :
    engine.history 0 (actions ++ [action]) =
      engine.history 0 actions ++
        [⟨(engine.runFrom 0 actions).entry,
          (engine.runFrom 0 actions).deed actions.length action⟩] := by
  rw [history_append, Nat.zero_add]
  rfl

theorem runFrom_concat (engine : Engine) (actions : List Action)
    (action : Action) :
    engine.runFrom 0 (actions ++ [action]) =
      (engine.runFrom 0 actions).perform actions.length action := by
  rw [runFrom_append, Nat.zero_add]
  rfl

theorem accounts_runFrom (config : Config)
    (rates : Option (Option Snapshot)) (base : Option (Option Text))
    (actions : List Action) :
    Accounts actions ((new config rates base).history 0 actions)
      ((new config rates base).runFrom 0 actions) := by
  induction actions using List.reverseRecOn with
  | nil =>
      exact new_accounts config rates base
  | append_singleton actions action inductionHypothesis =>
      rw [history_concat, runFrom_concat]
      exact inductionHypothesis.concat action

theorem deed_of_disposed (config : Config)
    (rates : Option (Option Snapshot)) (base : Option (Option Text))
    (earlier later : List Action) :
    ∀ deed ∈ ((new config rates base).runFrom 0
        (earlier ++ [.dispose])).history (earlier.length + 1) later,
      deed.happening = .nothing := by
  have link := (new_linked config rates base).runFrom earlier 0
  have stopped := Stopped.of_dispose
    (stopped_of_disposed config rates base earlier)
  rw [runFrom_concat]
  refine forall_history
    (motive := fun _ engine => engine.Stopped ∧
      ∃ ratesAlone baseAlone, engine.Linked ratesAlone baseAlone)
    ?_ later ⟨stopped, _, _, link.dispose⟩
  rintro engine number action ⟨isStopped, ratesAlone, baseAlone, linked⟩
  exact ⟨isStopped.deed number action,
    (isStopped.perform linked number action).1, _, _,
    linked.perform number action⟩

theorem deed_of_cancelled (engine : Engine) (earlier later : List Action)
    {task : TaskId} (known : task < earlier.length) :
    ∀ deed ∈ (engine.runFrom 0 (earlier ++ [.cancel task])).history
        (earlier.length + 1) later,
      deed.happening.task? ≠ some task := by
  rw [runFrom_concat]
  exact forall_history
    (motive := fun number engine => engine.Withdrawn number task)
    (fun _ _ action withdrawn =>
      ⟨withdrawn.task?_deed action, withdrawn.perform action⟩)
    later (.of_cancel known)

/-- What the history of a run tells of the events that were handed in. -/
structure HistoryTells (first : Engine) (actions : List Action) : Prop where
  handedIn : ∀ turn ∈ turnsAmong (first.history 0 actions),
    HandedIn actions turn
  once : ((turnsAmong (first.history 0 actions)).map (·.1)).Nodup
  fits : ∀ deed ∈ first.history 0 actions, deed.Fits first.config
  noted : ∀ earlier action later, actions = earlier ++ action :: later →
    ∀ capture ∈
        ((first.runFrom 0 earlier).deed earlier.length action).conversions,
      capture ∈ capturesAmong (first.history 0 earlier)
  convertedOnce :
    ((conversionsAmong (first.history 0 actions)).map Capture.task).Nodup
  disposed : ∀ earlier later, actions = earlier ++ .dispose :: later →
    ∀ deed ∈ (first.runFrom 0 (earlier ++ [.dispose])).history
        (earlier.length + 1) later,
      deed.happening = .nothing
  cancelled : ∀ earlier task later,
    actions = earlier ++ .cancel task :: later → task < earlier.length →
      ∀ deed ∈ (first.runFrom 0 (earlier ++ [.cancel task])).history
          (earlier.length + 1) later,
        deed.happening.task? ≠ some task

theorem history_tells (config : Config) (rates : Option (Option Snapshot))
    (base : Option (Option Text)) (actions : List Action) :
    HistoryTells (new config rates base) actions := by
  have accounts := accounts_runFrom config rates base actions
  refine ⟨fun turn member => (accounts.turned turn member).1, accounts.once,
    ?_, ?_, accounts.convertedOnce, ?_, ?_⟩
  · refine forall_history
      (motive := fun _ engine => engine.config = config) ?_ actions rfl
    rintro engine number action rfl
    exact ⟨engine.fits_deed number action,
      config_perform engine number action⟩
  · intro earlier action _ _ capture member
    exact (accounts_runFrom config rates base earlier).noted action member
  · intro earlier later _
    exact deed_of_disposed config rates base earlier later
  · intro earlier task later _ known
    exact deed_of_cancelled _ earlier later known

end Engine

end CurrencyPad
