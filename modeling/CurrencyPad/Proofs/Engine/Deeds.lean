import CurrencyPad.Proofs.Engine.Disposal
import CurrencyPad.Proofs.Engine.History

/-!
# Deeds of tasks

The deeds of a run belong to the events that were handed in.  An event has its
turn at most once.  A choice of a currency notes an amount at its turn or is done
with it, and what was noted is converted at most once.  A task that is withdrawn
does nothing any more.
-/

namespace CurrencyPad

def Happening.task? : Happening → Option TaskId
  | .applied task _ => some task
  | .selected task _ => some task
  | .captured capture => some capture.task
  | .converted capture _ => some capture.task
  | _ => none

/-- A choice of a currency is selected at its turn where there is no amount to
convert.  Else it notes the currency that is selected and the amount that is
entered. -/
def Deed.Fits (config : Config) (deed : Deed) : Prop :=
  match deed.happening with
  | .applied _ event => ∀ code, event ≠ .currency code
  | .selected _ code => deed.entry.amountFor? config code = none
  | .captured capture =>
      capture.source = deed.entry.currency ∧
        deed.entry.amountFor? config capture.target = some capture.amount
  | _ => True

namespace PendingConversion

@[simp]
theorem capture_abandon (conversion : PendingConversion) :
    conversion.abandon.capture = conversion.capture := by
  unfold abandon
  split <;> rfl

@[simp]
theorem capture_cancel (conversion : PendingConversion) :
    conversion.cancel.capture = conversion.capture := by
  unfold cancel
  split <;> rfl

@[simp]
theorem capture_receive (rates : Option Snapshot) (waiters : List TaskId)
    (conversion : PendingConversion) :
    (conversion.receive rates waiters).capture = conversion.capture := by
  unfold receive
  split
  · split <;> rfl
  · rfl

theorem ending_cases (conversion : PendingConversion) :
    conversion.ending = .nothing ∨
      ∃ rates, conversion.read = .received (some rates) ∧
        conversion.ending = .converted conversion.capture rates := by
  unfold ending
  split
  case h_1 rates received =>
    exact .inr ⟨rates, received, rfl⟩
  · exact .inl rfl

theorem ending_of_isGivenUp {conversion : PendingConversion}
    (givenUp : conversion.isGivenUp = true) :
    conversion.ending = .nothing := by
  rcases conversion.ending_cases with nothing | ⟨rates, received, _⟩
  · exact nothing
  · simp [isGivenUp, received] at givenUp

end PendingConversion

namespace Engine

variable {engine : Engine} {number : TaskId} {action : Action}

/-! ## The deed of an action -/

theorem turns_turn (engine : Engine) (task : TaskId) (event : Event) :
    (engine.turn task event).turns = [(task, event)] ∧
      (engine.turn task event).conversions = [] ∧
      (engine.turn task event).task? = some task := by
  unfold turn
  split
  · split <;> exact ⟨rfl, rfl, rfl⟩
  · exact ⟨rfl, rfl, rfl⟩

theorem fits_turn (engine : Engine) (task : TaskId) (event : Event) :
    Deed.Fits engine.config ⟨engine.entry, engine.turn task event⟩ := by
  unfold turn
  split
  case h_1 code =>
    split
    case h_1 nothing =>
      exact nothing
    case h_2 amount entered =>
      exact ⟨rfl, entered⟩
  case h_2 noChoice =>
    exact noChoice

theorem turnOf_cases (engine : Engine) (submission : Submission) :
    engine.turnOf submission = .nothing ∨
      submission.cancelled = false ∧
        engine.turnOf submission =
          engine.turn submission.task submission.event := by
  unfold turnOf
  split
  · exact .inl rfl
  case isFalse turns =>
    refine .inr ⟨?_, rfl⟩
    cases cancelled : submission.cancelled with
    | true =>
        simp [cancelled] at turns
    | false =>
        rfl

/-- An action is the turn of an event that it hands in, or of the first one that
waits. -/
def IsTurnOf (engine : Engine) (number : TaskId) (action : Action)
    (submission : Submission) : Prop :=
  submission.task = number ∧ action = .handle submission.event ∨
    action = .beginNext ∧ ∃ rest, engine.submissions = submission :: rest

/-- An action does nothing to the entry, or an event has its turn that is not
cancelled, or a conversion ends that has received rates. -/
theorem deed_cases (engine : Engine) (number : TaskId) (action : Action) :
    engine.deed number action = .nothing ∨
      (∃ submission : Submission,
        engine.IsTurnOf number action submission ∧
          submission.cancelled = false ∧
          engine.deed number action =
            engine.turn submission.task submission.event) ∨
      ∃ conversion ∈ engine.conversions, ∃ rates,
        action = .complete conversion.task ∧
          conversion.read = .received (some rates) ∧
          engine.deed number action =
            .converted conversion.capture rates := by
  cases action with
  | handle event =>
      rcases engine.turnOf_cases ⟨number, event, false⟩ with
        nothing | ⟨uncancelled, turn⟩
      · exact .inl nothing
      · exact .inr (.inl ⟨_, .inl ⟨rfl, rfl⟩, uncancelled, turn⟩)
  | beginNext =>
      unfold deed
      cases waiting : engine.submissions with
      | nil =>
          exact .inl rfl
      | cons submission rest =>
          rcases turnOf_cases { engine with submissions := rest }
              submission with
            nothing | ⟨uncancelled, turn⟩
          · exact .inl nothing
          · refine .inr (.inl
              ⟨submission, .inr ⟨rfl, rest, waiting⟩, uncancelled, turn⟩)
  | complete task =>
      change (engine.conversionOf? task).elim .nothing (·.ending) =
        .nothing ∨ _
      cases found : engine.conversionOf? task with
      | none =>
          exact .inl rfl
      | some conversion =>
          obtain ⟨member, rfl⟩ := conversionOf?_eq_some found
          rcases conversion.ending_cases with
            nothing | ⟨rates, received, ends⟩
          · exact .inl nothing
          · refine .inr (.inr
              ⟨conversion, member, rates, rfl, received, ?_⟩)
            change (engine.conversionOf? conversion.task).elim .nothing
              (·.ending) = _
            rw [found]
            exact ends
  | _ =>
      exact .inl rfl

theorem fits_deed (engine : Engine) (number : TaskId) (action : Action) :
    Deed.Fits engine.config
      ⟨engine.entry, engine.deed number action⟩ := by
  rcases engine.deed_cases number action with
    nothing | ⟨submission, _, _, turn⟩ | ⟨conversion, _, rates, _, _, ends⟩
  · rw [nothing]
    trivial
  · rw [turn]
    exact engine.fits_turn submission.task submission.event
  · rw [ends]
    trivial

/-! ## Where conversions come from -/

/-- A conversion begins at the turn that notes its amount. -/
theorem conversions_beginEvent (engine : Engine) (task : TaskId)
    (event : Event) :
    (engine.beginEvent task event).conversions = engine.conversions ∨
      ∃ conversion,
        engine.turn task event = .captured conversion.capture ∧
          (engine.beginEvent task event).conversions =
            engine.conversions ++ [conversion] := by
  cases event with
  | currency code =>
      change (engine.beginCurrency task code).conversions = _ ∨ _
      cases entered : engine.entry.amountFor? engine.config code with
      | none =>
          left
          rw [beginCurrency_of_none entered]
          exact congrArg Frame.conversions
            (frame_applyCurrency engine code none)
      | some amount =>
          right
          refine ⟨⟨task, engine.currency, code, amount, .requested⟩, ?_, ?_⟩
          · simp only [turn, entered]
            rfl
          · change (engine.beginCurrency task code).conversions = _
            rw [beginCurrency_of_some entered]
  | _ =>
      exact .inl (congrArg Frame.conversions (frame_dispatch engine _))

theorem conversions_begin (engine : Engine) (submission : Submission) :
    (engine.begin submission).conversions = engine.conversions ∨
      ∃ conversion,
        engine.turnOf submission = .captured conversion.capture ∧
          (engine.begin submission).conversions =
            engine.conversions ++ [conversion] := by
  rcases engine.begin_cases submission with
    ⟨_, ready, outcome, isReady, ends⟩ | ⟨_, _, turns, begins⟩
  · left
    rw [ends]
    rcases isReady with rfl | rfl
    · rfl
    · exact conversions_start engine
  · have turned := engine.start.1.conversions_beginEvent submission.task
      submission.event
    rw [conversions_start] at turned
    rw [turns, begins]
    exact turned

/-- A conversion was pending before, with what it noted then, and if it was given
up it still is. -/
def Continues (engine : Engine) (conversion : PendingConversion) : Prop :=
  ∃ earlier ∈ engine.conversions,
    earlier.capture = conversion.capture ∧
      (earlier.isGivenUp = true → conversion.isGivenUp = true)

variable {conversion : PendingConversion}

theorem continues_of_mem (pending : conversion ∈ engine.conversions) :
    engine.Continues conversion :=
  ⟨conversion, pending, rfl, id⟩

theorem continues_of_mem_map
    {change : PendingConversion → PendingConversion}
    (sameCapture : ∀ other, (change other).capture = other.capture)
    (givenUp : ∀ other, other.isGivenUp = true →
      (change other).isGivenUp = true)
    (member : conversion ∈ engine.conversions.map change) :
    engine.Continues conversion := by
  obtain ⟨earlier, pending, rfl⟩ := List.mem_map.mp member
  exact ⟨earlier, pending, (sameCapture earlier).symm, givenUp earlier⟩

theorem continues_of_mem_look {looking : PendingConversion}
    (pending : looking ∈ engine.conversions)
    (member : conversion ∈ (engine.look looking).conversions) :
    engine.Continues conversion := by
  -- Whoever looks has asked for rates and is not given up.
  have replaced : ∀ read, looking.read = .requested →
      conversion ∈ engine.conversions.map (fun other =>
        if other.task = looking.task then { looking with read }
        else other) →
        engine.Continues conversion := by
    intro read requested mapped
    obtain ⟨other, otherPending, rfl⟩ := List.mem_map.mp mapped
    split
    · refine ⟨looking, pending, rfl, fun givenUp => ?_⟩
      exact absurd requested
        (PendingConversion.read_ne_requested_of_isGivenUp givenUp)
    · exact continues_of_mem otherPending
  unfold look at member
  split at member
  case h_1 requested _ =>
    exact replaced _ requested member
  case h_2 requested _ =>
    exact replaced _ requested member
  · exact continues_of_mem member

theorem continues_of_mem_complete {ending : PendingConversion}
    (member : conversion ∈ (engine.complete ending).conversions) :
    engine.Continues conversion := by
  rcases frame_complete engine ending with ⟨same, _⟩ | ⟨_, dropped⟩
  · rw [same] at member
    exact continues_of_mem member
  · have left := congrArg Frame.conversions dropped
    change (engine.complete ending).conversions =
      engine.conversions.filter (·.task != ending.task) at left
    rw [left] at member
    exact continues_of_mem (List.mem_filter.mp member).1

theorem continues_of_mem_setRates {rates : Snapshot}
    (member : conversion ∈ (engine.setRates (some rates)).1.conversions) :
    engine.Continues conversion := by
  rcases frame_setRates engine rates with ⟨_, sameFrame⟩ | ⟨_, sameFrame⟩
  · have same : (engine.setRates (some rates)).1.conversions =
        engine.conversions :=
      congrArg Frame.conversions sameFrame
    rw [same] at member
    exact continues_of_mem member
  · have received : (engine.setRates (some rates)).1.conversions =
        (engine.receiving rates).conversions :=
      congrArg Frame.conversions sameFrame
    rw [received] at member
    exact continues_of_mem_map (fun other => other.capture_receive _ _)
      (fun _ givenUp => PendingConversion.isGivenUp_receive givenUp _ _)
      member

theorem continues_of_mem_setBase {base : Text}
    (member : conversion ∈ (engine.setBase (some base)).1.conversions) :
    engine.Continues conversion := by
  have same : (engine.setBase (some base)).1.conversions =
      engine.conversions := by
    rcases frame_setBase engine base with
      ⟨_, sameFrame⟩ | ⟨_, sameFrame⟩ <;>
      exact congrArg Frame.conversions sameFrame
  rw [same] at member
  exact continues_of_mem member

theorem continues_of_mem_cancel {task : TaskId}
    (member : conversion ∈ (engine.cancel task).conversions) :
    engine.Continues conversion := by
  refine continues_of_mem_map (fun other => ?_) (fun other givenUp => ?_)
    member
  · split
    · exact other.capture_cancel
    · rfl
  · split
    · exact other.isGivenUp_cancel
    · exact givenUp

theorem continues_of_mem_dispose
    (member : conversion ∈ engine.dispose.conversions) :
    engine.Continues conversion := by
  unfold dispose at member
  split at member
  · exact continues_of_mem member
  · exact continues_of_mem_map PendingConversion.capture_abandon
      (fun other _ => other.isGivenUp_abandon) member

/-- A conversion that is pending after a turn was noted in it or was pending
before. -/
theorem captured_or_continues_of_mem_begin {before : Engine}
    {submission : Submission} (same : before.conversions = engine.conversions)
    (member : conversion ∈ (before.begin submission).conversions) :
    before.turnOf submission = .captured conversion.capture ∨
      engine.Continues conversion := by
  rcases before.conversions_begin submission with
    unchanged | ⟨new, noted, joined⟩
  · rw [unchanged, same] at member
    exact .inr (continues_of_mem member)
  · rw [joined, same] at member
    rcases List.mem_append.mp member with pending | isNew
    · exact .inr (continues_of_mem pending)
    · rw [List.mem_singleton.mp isNew]
      exact .inl noted

/-- A conversion that is pending after an action was noted by it or was pending
before. -/
theorem conversion_of_mem_perform
    (member : conversion ∈ (engine.perform number action).conversions) :
    engine.deed number action = .captured conversion.capture ∨
      engine.Continues conversion := by
  cases action with
  | start =>
      right
      rw [Engine.perform, conversions_start] at member
      exact continues_of_mem member
  | dispose =>
      exact .inr (continues_of_mem_dispose member)
  | handle event =>
      exact captured_or_continues_of_mem_begin rfl member
  | beginNext =>
      rw [Engine.perform] at member
      unfold beginNext at member
      unfold deed
      cases waiting : engine.submissions with
      | nil =>
          rw [waiting] at member
          exact .inr (continues_of_mem member)
      | cons submission rest =>
          rw [waiting] at member
          exact captured_or_continues_of_mem_begin rfl member
  | look task =>
      right
      rcases perform_look_cases engine number task with
        ⟨_, same⟩ | ⟨looking, pending, _, looks⟩
      · rw [same] at member
        exact continues_of_mem member
      · rw [looks] at member
        exact continues_of_mem_look pending member
  | complete task =>
      right
      rcases perform_complete_cases engine number task with
        ⟨_, same⟩ | ⟨ending, _, _, ends⟩
      · rw [same] at member
        exact continues_of_mem member
      · rw [ends] at member
        exact continues_of_mem_complete member
  | cancel task =>
      exact .inr (continues_of_mem_cancel member)
  | setRates rates =>
      exact .inr (continues_of_mem_setRates member)
  | setBase base =>
      exact .inr (continues_of_mem_setBase member)
  | _ =>
      exact .inr (continues_of_mem member)

/-! ## Tasks that are withdrawn -/

/-- A task that will have no turn any more, and of which at most a conversion is
left that will end without an effect. -/
structure Withdrawn (number task : TaskId) (engine : Engine) : Prop where
  earlier : task < number
  cancelled : ∀ submission ∈ engine.submissions,
    submission.task = task → submission.cancelled = true
  givenUp : ∀ conversion ∈ engine.conversions,
    conversion.task = task → conversion.isGivenUp = true

variable {task : TaskId}

theorem Withdrawn.of_cancel (earlier : task < number) :
    (engine.cancel task).Withdrawn (number + 1) task := by
  refine ⟨Nat.lt_succ_of_lt earlier, ?_, ?_⟩
  · intro submission member own
    obtain ⟨before, _, rfl⟩ := List.mem_map.mp member
    split at own
    case isTrue same =>
      rw [if_pos same]
      rfl
    case isFalse different =>
      exact absurd own different
  · intro conversion member own
    obtain ⟨before, _, rfl⟩ := List.mem_map.mp member
    split at own
    case isTrue same =>
      rw [if_pos same]
      exact before.isGivenUp_cancel
    case isFalse different =>
      exact absurd own different

/-- A task that is withdrawn does nothing. -/
theorem Withdrawn.task?_deed (withdrawn : engine.Withdrawn number task)
    (action : Action) :
    (engine.deed number action).task? ≠ some task := by
  rcases engine.deed_cases number action with
    nothing | ⟨submission, source, uncancelled, turn⟩ |
      ⟨conversion, pending, rates, _, received, ends⟩
  · rw [nothing]
    nofun
  · rw [turn, (engine.turns_turn _ _).2.2]
    intro same
    have own := Option.some.inj same
    rcases source with ⟨new, _⟩ | ⟨_, rest, waiting⟩
    · have earlier := withdrawn.earlier
      rw [← own, new] at earlier
      exact Nat.lt_irrefl number earlier
    · have waits : submission ∈ engine.submissions := by
        rw [waiting]
        exact List.mem_cons_self
      rw [withdrawn.cancelled submission waits own] at uncancelled
      cases uncancelled
  · rw [ends]
    intro same
    have givenUp := withdrawn.givenUp conversion pending
      (Option.some.inj same)
    simp [PendingConversion.isGivenUp, received] at givenUp

theorem Withdrawn.perform (withdrawn : engine.Withdrawn number task)
    (action : Action) :
    (engine.perform number action).Withdrawn (number + 1) task := by
  refine ⟨Nat.lt_succ_of_lt withdrawn.earlier, ?_, ?_⟩
  · rintro submission member rfl
    rcases submission_of_mem_perform member with
      ⟨new, _⟩ | ⟨before, waited, same, _, stays⟩
    · exact absurd (new ▸ withdrawn.earlier) (Nat.lt_irrefl _)
    · exact stays (withdrawn.cancelled before waited same)
  · rintro conversion member rfl
    rcases conversion_of_mem_perform member with
      noted | ⟨before, pending, same, stays⟩
    · have unnoted := withdrawn.task?_deed action
      rw [noted] at unnoted
      exact absurd rfl unnoted
    · exact stays (withdrawn.givenUp before pending
        (congrArg Capture.task same))

theorem Stopped.deed (stopped : engine.Stopped) (number : TaskId)
    (action : Action) : engine.deed number action = .nothing := by
  have idle : ∀ (rest : List Submission) (submission : Submission),
      ({ engine with submissions := rest } : Engine).turnOf submission =
        .nothing := by
    intro rest submission
    have fails :
        ({ engine with submissions := rest } : Engine).start.2 =
          some .disposed := by
      simp [start, stopped.disposed]
    simp [turnOf, fails]
  cases action with
  | handle event =>
      exact idle engine.submissions _
  | beginNext =>
      unfold Engine.deed
      cases engine.submissions with
      | nil =>
          rfl
      | cons submission rest =>
          exact idle rest submission
  | complete task =>
      change (engine.conversionOf? task).elim .nothing (·.ending) = .nothing
      cases found : engine.conversionOf? task with
      | none =>
          rfl
      | some conversion =>
          exact PendingConversion.ending_of_isGivenUp
            (stopped.givenUp conversion (conversionOf?_eq_some found).1)
  | _ =>
      rfl

/-! ## Turns and ends -/

/-- A turn is one of an event that the action hands in or that waited, and the
event does not wait any more. -/
theorem Tidy.of_mem_turns (tidy : engine.Tidy number)
    {turn : TaskId × Event}
    (member : turn ∈ (engine.deed number action).turns) :
    (turn.1 = number ∧ action.event? = some turn.2 ∨
        ∃ submission ∈ engine.submissions,
          (submission.task, submission.event) = turn) ∧
      ∀ submission ∈ (engine.perform number action).submissions,
        submission.task ≠ turn.1 := by
  rcases engine.deed_cases number action with
    nothing | ⟨submission, source, _, turns⟩ | ⟨_, _, rates, _, _, ends⟩
  · rw [nothing] at member
    cases member
  · rw [turns, (engine.turns_turn _ _).1] at member
    rw [List.mem_singleton.mp member]
    rcases source with ⟨new, rfl⟩ | ⟨rfl, rest, waiting⟩
    · refine ⟨.inl ⟨new, rfl⟩, fun other waits same => ?_⟩
      change other ∈ (engine.begin ⟨number, submission.event, false⟩).submissions
        at waits
      rw [submissions_begin] at waits
      have earlier := tidy.earlier other.task
        (List.mem_append_left _ (List.mem_map_of_mem waits))
      rw [same, new] at earlier
      exact Nat.lt_irrefl number earlier
    · have waits : submission ∈ engine.submissions := by
        rw [waiting]
        exact List.mem_cons_self
      refine ⟨.inr ⟨submission, waits, rfl⟩, fun other stays same => ?_⟩
      have distinct := (List.nodup_append.mp tidy.distinct).1
      change other ∈ engine.beginNext.submissions at stays
      unfold beginNext at stays
      rw [waiting, List.map_cons] at distinct
      rw [waiting] at stays
      dsimp only at stays
      rw [submissions_begin] at stays
      have twice : other.task ∈ rest.map (·.task) :=
        List.mem_map_of_mem stays
      rw [same] at twice
      exact (List.nodup_cons.mp distinct).1 twice
  · rw [ends] at member
    cases member

/-- What is converted was pending, and nothing is left of it. -/
theorem Tidy.of_mem_conversions (tidy : engine.Tidy number)
    {capture : Capture}
    (member : capture ∈ (engine.deed number action).conversions) :
    (∃ conversion ∈ engine.conversions, conversion.capture = capture) ∧
      (engine.perform number action).Over (number + 1) capture.task := by
  rcases engine.deed_cases number action with
    nothing | ⟨submission, _, _, turn⟩ |
      ⟨conversion, pending, rates, rfl, received, ends⟩
  · rw [nothing] at member
    cases member
  · rw [turn, (engine.turns_turn _ _).2.1] at member
    cases member
  · rw [ends] at member
    rw [List.mem_singleton.mp member]
    have task : conversion.task ∈ engine.conversions.map (·.task) :=
      List.mem_map_of_mem pending
    have found := conversionOf?_eq_some_of_mem tidy.distinct_conversions
      pending
    have completes : engine.perform number (.complete conversion.task) =
        engine.complete conversion := by
      rw [Engine.perform, found]
      rfl
    have unlike : ∀ other ∈ (engine.perform number
        (.complete conversion.task)).conversions,
          other.task ≠ conversion.task := by
      intro other stays
      rw [completes] at stays
      rcases frame_complete engine conversion with
        ⟨_, unread⟩ | ⟨_, dropped⟩
      · rw [received] at unread
        rcases unread with unread | unread <;> cases unread
      · have left := congrArg Frame.conversions dropped
        change (engine.complete conversion).conversions =
          engine.conversions.filter (·.task != conversion.task) at left
        rw [left] at stays
        simpa using (List.mem_filter.mp stays).2
    refine ⟨⟨conversion, pending, rfl⟩,
      ⟨tidy.of_moves (moves_perform engine number _), ?_, ?_, ?_⟩, unlike⟩
    · exact Nat.lt_succ_of_lt
        (tidy.earlier _ (List.mem_append_right _ task))
    · intro submission waits same
      rw [submissions_complete] at waits
      have twice : submission.task ∈ engine.submissions.map (·.task) :=
        List.mem_map_of_mem waits
      exact (List.nodup_append.mp tidy.distinct).2.2 _ twice _ task same
    · exact fun other stays same => absurd same (unlike other stays)

/-! ## Histories -/

theorem history_append (engine : Engine) (number : TaskId)
    (first rest : List Action) :
    engine.history number (first ++ rest) =
      engine.history number first ++
        (engine.runFrom number first).history (number + first.length)
          rest := by
  induction first generalizing engine number with
  | nil =>
      rfl
  | cons action tail inductionHypothesis =>
      rw [List.cons_append, history, history, inductionHypothesis, runFrom,
        List.length_cons, Nat.add_assoc, Nat.add_comm 1]
      rfl

/-- What holds of every deed of an engine in a state that all actions keep holds
of all deeds of a run. -/
theorem forall_history {motive : TaskId → Engine → Prop}
    {property : Deed → Prop}
    (kept : ∀ (engine : Engine) (number : TaskId) (action : Action),
      motive number engine →
        property ⟨engine.entry, engine.deed number action⟩ ∧
          motive (number + 1) (engine.perform number action))
    (actions : List Action) (first : motive number engine) :
    ∀ deed ∈ engine.history number actions, property deed := by
  induction actions generalizing engine number with
  | nil =>
      nofun
  | cons action rest inductionHypothesis =>
      obtain ⟨here, next⟩ := kept engine number action first
      exact List.forall_mem_cons.mpr ⟨here, inductionHypothesis next⟩

end Engine

end CurrencyPad
