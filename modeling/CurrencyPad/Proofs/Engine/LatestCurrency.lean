import CurrencyPad.Proofs.Engine.Interleaving

/-!
# The latest currency

Choices of a currency are handed in one after another, but a choice that has an
amount to convert is applied only when its conversion ends.  So the currency is
the one of the choice applied last, which need not be the one handed in last.
-/

namespace CurrencyPad

def Event.choice? : Event → Option Text
  | .currency code => some code
  | .initial (some money) => some money.currency
  | _ => none

def choicesAmong (events : List (TaskId × Event)) : List (TaskId × Text) :=
  events.filterMap fun (task, event) =>
    event.choice?.map fun code => (task, code)

theorem choicesAmong_append (first rest : List (TaskId × Event)) :
    choicesAmong (first ++ rest) =
      choicesAmong first ++ choicesAmong rest :=
  List.filterMap_append

theorem choicesAmong_singleton (task : TaskId) (event : Event) :
    choicesAmong [(task, event)] =
      (event.choice?.map fun code => (task, code)).toList := by
  simp only [choicesAmong, List.filterMap_cons, List.filterMap_nil]
  cases event.choice? <;> rfl

def Capture.choice (capture : Capture) : TaskId × Text :=
  (capture.task, capture.target)

namespace Happening

def submittedChoices (happening : Happening) : List (TaskId × Text) :=
  choicesAmong happening.submissions

def appliedChoices : Happening → List (TaskId × Text)
  | .applied task event => choicesAmong [(task, event)]
  | .selected task code => [(task, code)]
  | .converted capture _ => [capture.choice]
  | _ => []

/-- A choice that has its turn is applied at once or noted, and a choice that
was noted is applied when its conversion ends. -/
theorem choicesAmong_turns_perm (happening : Happening) :
    (choicesAmong happening.turns ++
        happening.conversions.map Capture.choice).Perm
      (happening.appliedChoices ++
        happening.captures.map Capture.choice) := by
  cases happening <;> exact List.Perm.refl _

end Happening

theorem Entry.currency_calculated (config : Config) (entry : Entry) :
    (entry.calculated config).currency = entry.currency := by
  unfold calculated
  split <;> rfl

theorem Entry.currency_filledIn
    (config : Config) (entry : Entry) (money : Money) :
    (entry.filledIn config money).currency = money.currency := by
  unfold filledIn
  split <;> rfl

/-- An event that has its turn leaves the currency as it is, unless it chooses
one. -/
theorem Entry.currency_apply (config : Config) (entry : Entry)
    {event : Event} (noChoice : ∀ code, event ≠ .currency code) :
    (entry.apply config event).currency =
      event.choice?.getD entry.currency := by
  cases event with
  | currency code =>
      exact absurd rfl (noChoice code)
  | backspace =>
      simp only [apply]
      split <;> rfl
  | equals =>
      exact entry.currency_calculated config
  | initial value =>
      cases value with
      | none =>
          rfl
      | some money =>
          exact entry.currency_filledIn config money
  | _ =>
      rfl

namespace Desk

variable {config : Config} {first last : Desk}

/-- The choices that wait for their turn or for their conversion to end. -/
def choices (desk : Desk) : List (TaskId × Text) :=
  choicesAmong desk.queue ++ desk.captures.map Capture.choice

theorem Step.currency {happening : Happening}
    (step : Step config first happening last) :
    last.entry.currency =
      (happening.appliedChoices.getLast?.map Prod.snd).getD
        first.entry.currency := by
  cases step with
  | @apply task event _ _ noChoice =>
      change (first.entry.apply config event).currency =
        ((choicesAmong [(task, event)]).getLast?.map Prod.snd).getD
          first.entry.currency
      rw [Entry.currency_apply config first.entry noChoice,
        choicesAmong_singleton]
      cases event.choice? <;> rfl
  | _ =>
      rfl

theorem Step.choices {happening : Happening}
    (step : Step config first happening last) :
    (first.choices ++ happening.submittedChoices).Perm
      (happening.appliedChoices ++ last.choices) := by
  have queued := congrArg choicesAmong step.queue
  have noted := step.captures.map Capture.choice
  have turned := happening.choicesAmong_turns_perm
  rw [choicesAmong_append, choicesAmong_append] at queued
  rw [List.map_append, List.map_append] at noted
  rw [List.perm_iff_count]
  intro choice
  have queuedCount := congrArg (List.count choice) queued
  have notedCount := noted.count_eq choice
  have turnedCount := turned.count_eq choice
  simp only [Desk.choices, Happening.submittedChoices,
    List.count_append] at queuedCount notedCount turnedCount ⊢
  omega

/-- The currency is the one of the choice applied last. -/
theorem Run.currency {happenings : List Happening}
    (run : Run config first happenings last) :
    last.entry.currency =
      ((happenings.flatMap
        Happening.appliedChoices).getLast?.map Prod.snd).getD
          first.entry.currency := by
  induction run with
  | nil =>
      rfl
  | @cons first middle last happening rest step _ inductionHypothesis =>
      rw [inductionHypothesis, step.currency, List.flatMap_cons,
        List.getLast?_append]
      cases (rest.flatMap Happening.appliedChoices).getLast? <;> rfl

/-- Each choice that was waiting or was handed in is applied once or is waiting
still. -/
theorem Run.choices {happenings : List Happening}
    (run : Run config first happenings last) :
    (first.choices ++
        happenings.flatMap Happening.submittedChoices).Perm
      (happenings.flatMap Happening.appliedChoices ++ last.choices) :=
  run.perm_of_step Step.choices

/-- Where one choice is left and everything is done in the end, its currency is
selected in the end. -/
theorem Run.currency_of_choices {happenings : List Happening}
    (run : Run config first happenings last) {task : TaskId} {code : Text}
    (left :
      first.choices ++ happenings.flatMap Happening.submittedChoices =
        [(task, code)])
    (done : last.choices = []) :
    last.entry.currency = code := by
  have accounted := run.choices
  rw [left, done, List.append_nil] at accounted
  rw [run.currency, List.perm_singleton.mp accounted.symm]
  rfl

end Desk

namespace Engine

/-- Where all tasks have ended, nothing is left on the desk. -/
theorem desk_of_done {engine : Engine} (done : engine.pending = 0) :
    engine.desk.queue = [] ∧ engine.desk.choices = [] := by
  unfold pending at done
  have unsubmitted : engine.submissions = [] :=
    List.eq_nil_of_length_eq_zero (by omega)
  have unconverting : engine.conversions = [] :=
    List.eq_nil_of_length_eq_zero (by omega)
  unfold Desk.choices Desk.captures desk
  rw [unsubmitted, unconverting]
  exact ⟨rfl, rfl⟩

/-- Once all tasks have ended, each event has had its turn, in the order in
which the events were handed in, each choice of a currency that was waiting or
was handed in has been applied once, and the currency is the one of the choice
applied last. Where a single choice is left on the way, this is the one. -/
theorem currency_of_last_applied_choice
    (config : Config) (rates : Option Snapshot) (base : Option Text)
    (previous actions : List Action)
    (peaceful : ∀ action ∈ previous, action.isPeaceful = true)
    (ordinary : ∀ action ∈ actions, action.isOrdinary = true)
    (done :
      (((new config (rates.map some) (base.map some)).runFrom 0
        previous).runFrom previous.length actions).pending = 0) :
    let engine :=
      (new config (rates.map some) (base.map some)).runFrom 0 previous
    let last := engine.runFrom previous.length actions
    let happened := engine.happenings previous.length actions
    let applied := happened.flatMap Happening.appliedChoices
    engine.desk.queue ++ happened.flatMap Happening.submissions =
        happened.flatMap Happening.turns ∧
      (engine.desk.choices ++
        happened.flatMap Happening.submittedChoices).Perm applied ∧
      last.currency =
        (applied.getLast?.map Prod.snd).getD engine.currency ∧
      ∀ (earlier later : List Action) (task : TaskId) (code : Text),
        actions = earlier ++ later →
        let number := previous.length + earlier.length
        let middle := engine.runFrom previous.length earlier
        let rest := middle.happenings number later
        middle.desk.choices ++ rest.flatMap Happening.submittedChoices =
            [(task, code)] →
          last.currency = code := by
  intro engine last happened applied
  have first := new_orderly config rates (base.map some)
  have orderly := first.runFrom_peaceful previous peaceful
  rw [Nat.zero_add] at orderly
  obtain ⟨run, _⟩ := orderly.runFrom actions ordinary
  obtain ⟨noneWaits, nothingLeft⟩ := @desk_of_done last done
  refine ⟨?_, ?_, run.currency, ?_⟩
  · have turned := run.queue
    rw [noneWaits, List.append_nil] at turned
    exact turned
  · have accounted := run.choices
    rw [nothingLeft, List.append_nil] at accounted
    exact accounted
  · intro earlier later task code split number middle rest left
    subst split
    obtain ⟨_, orderlyMiddle⟩ :=
      orderly.runFrom earlier fun action member =>
        ordinary action (List.mem_append_left later member)
    obtain ⟨runLater, _⟩ :=
      orderlyMiddle.runFrom later fun action member =>
        ordinary action (List.mem_append_right earlier member)
    have lastEq : last = middle.runFrom number later :=
      runFrom_append engine previous.length earlier later
    rw [lastEq] at nothingLeft ⊢
    exact runLater.currency_of_choices left nothingLeft

/-- The currency is changed to one that needs rates and back again, and the
rates are looked for afterwards. -/
def changeAndBack : List Action :=
  [.submit (.initial (some ⟨.zero, "USD".toList⟩)),
    .submit (.digit five), .submit (.currency "EUR".toList),
    .submit (.currency "USD".toList),
    .beginNext, .beginNext, .beginNext, .beginNext, .look 2, .complete 2]

private theorem changeAndBack_ordinary :
    ∀ action ∈ changeAndBack, action.isOrdinary = true := by
  simp [changeAndBack, Action.isOrdinary, Action.isPeaceful]

theorem currency_of_changeAndBack :
    let engine := new Config.default (some (some ⟨none, []⟩)) none
    let last := engine.runFrom 0 changeAndBack
    let happened := engine.happenings 0 changeAndBack
    let turned := happened.flatMap Happening.turns
    let applied := happened.flatMap Happening.appliedChoices
    last.pending = 0 ∧
      happened.flatMap Happening.submissions = turned ∧
      turned.map Prod.fst = [0, 1, 2, 3] ∧
      applied =
        [(0, "USD".toList), (3, "USD".toList), (2, "EUR".toList)] ∧
      last.currency = (applied.getLast?.map Prod.snd).getD [] := by
  intro engine last happened turned applied
  have done : last.pending = 0 := by
    decide +kernel
  obtain ⟨inOrder, _, latest, _⟩ :=
    currency_of_last_applied_choice Config.default (some ⟨none, []⟩) none
      [] changeAndBack nofun changeAndBack_ordinary done
  exact ⟨done, inOrder, by decide +kernel, by decide +kernel, latest⟩

/-- The choice handed in last does not always prevail. -/
theorem not_currency_of_last_submitted_choice :
    ¬ ∀ (config : Config) (rates : Option Snapshot) (base : Option Text)
        (actions : List Action),
      (∀ action ∈ actions, action.isOrdinary = true) →
        let engine := new config (rates.map some) (base.map some)
        let last := engine.runFrom 0 actions
        let submitted :=
          (engine.happenings 0 actions).flatMap
            Happening.submittedChoices
        last.pending = 0 →
          last.currency = (submitted.getLast?.map Prod.snd).getD [] := by
  intro prevails
  have done :
      ((new Config.default (some (some ⟨none, []⟩)) none).runFrom 0
        changeAndBack).pending = 0 := by
    decide +kernel
  have latest :=
    prevails Config.default (some ⟨none, []⟩) none changeAndBack
      changeAndBack_ordinary done
  revert latest
  decide +kernel

end Engine

end CurrencyPad
