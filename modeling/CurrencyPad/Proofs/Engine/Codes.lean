import CurrencyPad.Proofs.Engine.Deeds
import CurrencyPad.Proofs.Money.Currency

/-!
# Codes in normal form

Events are read with their codes in normal form.  Where only such events are
handed in, the selected currency has a code in normal form at every point of a
run, and so has every currency into which an amount is being converted.
-/

namespace CurrencyPad

open Currency (IsNormal)

namespace Event

/-- The code that an event names, if it names one, is in normal form. -/
def HasNormalCode : Event → Prop
  | .currency code => IsNormal code
  | .initial (some money) => IsNormal money.currency
  | _ => True

theorem hasNormalCode_chooseCurrency (code : Text) :
    (chooseCurrency code).HasNormalCode :=
  Currency.isNormal_normalize code

end Event

/-- An amount that is read has a code in normal form. -/
theorem Money.isNormal_of_ofFields {fields : Fields} {money : Money}
    (isRead : ofFields fields = .ok money) : IsNormal money.currency := by
  unfold ofFields at isRead
  dsimp only at isRead
  generalize fields.required "amount" finiteAmount = amount at isRead
  generalize fields.required "currency" Datum.asText = code at isRead
  cases amount with
  | error errors =>
      cases code <;> cases isRead
  | ok amount =>
      cases code with
      | error errors =>
          cases isRead
      | ok code =>
          cases isRead
          exact Currency.isNormal_normalize code

namespace Event

theorem hasNormalCode_of_initialField {fields : List (Text × Json)}
    {value : Option Money} (isRead : initialField fields = .ok value) :
    (Event.initial value).HasNormalCode := by
  unfold initialField at isRead
  split at isRead
  · cases isRead
    trivial
  · cases isRead
    trivial
  · split at isRead
    case h_1 money _ =>
      cases checked : Money.ofFields (.ofRecord money) with
      | error errors =>
          rw [checked] at isRead
          cases isRead
      | ok amount =>
          rw [checked] at isRead
          cases isRead
          exact Money.isNormal_of_ofFields checked
    · cases isRead

/-- What is read of a field and made into an event names no code, unless the
event does. -/
private theorem hasNormalCode_of_map {α : Type} {checked : Checked α}
    (make : α → Event)
    (made : ∀ x, checked = .ok x → (make x).HasNormalCode) {event : Event}
    (isRead : checked.map make = .ok event) : event.HasNormalCode := by
  cases checked with
  | error errors =>
      cases isRead
  | ok x =>
      cases isRead
      exact made x rfl

theorem hasNormalCode_of_ofKind? {kind : Text}
    {fields : List (Text × Json)} {checked : Checked Event} {event : Event}
    (known : ofKind? kind fields = some checked)
    (isRead : checked = .ok event) : event.HasNormalCode := by
  subst isRead
  unfold ofKind? at known
  split_ifs at known
  · cases known
    trivial
  · cases known
    trivial
  · exact hasNormalCode_of_map .operator (fun _ _ => trivial)
      (Option.some.inj known)
  · exact hasNormalCode_of_map .digit (fun _ _ => trivial)
      (Option.some.inj known)
  · cases known
    trivial
  · cases known
    trivial
  · exact hasNormalCode_of_map chooseCurrency
      (fun code _ => hasNormalCode_chooseCurrency code)
      (Option.some.inj known)
  · exact hasNormalCode_of_map .initial
      (fun _ checked => hasNormalCode_of_initialField checked)
      (Option.some.inj known)

theorem hasNormalCode_of_ofRecord {fields : List (Text × Json)} {event : Event}
    (isRead : ofRecord fields = .ok event) : event.HasNormalCode := by
  unfold ofRecord at isRead
  split at isRead
  · cases isRead
  · split at isRead
    case h_1 checked known =>
      cases checked with
      | error errors =>
          cases isRead
      | ok found =>
          cases isRead
          exact hasNormalCode_of_ofKind? known rfl
    · cases isRead
  · cases isRead

/-- Whatever a record describes, a code in it is read in normal form. -/
theorem hasNormalCode_of_ofJson {json : Json} {event : Event}
    (isRead : ofJson json = .ok event) : event.HasNormalCode := by
  unfold ofJson at isRead
  split at isRead
  · exact hasNormalCode_of_ofRecord isRead
  · cases isRead

end Event

namespace Happening

def code? : Happening → Option Text
  | .applied _ (.initial (some money)) => some money.currency
  | .selected _ code => some code
  | .converted capture _ => some capture.target
  | _ => none

theorem currency_effect (config : Config) (entry : Entry)
    (happening : Happening) :
    (happening.effect config entry).currency =
      happening.code?.getD entry.currency := by
  cases happening with
  | applied task event =>
      cases event with
      | backspace =>
          change (if entry.expression = [] then entry
            else entry.typed _).currency = entry.currency
          split <;> rfl
      | equals =>
          change (entry.calculated config).currency = entry.currency
          unfold Entry.calculated
          split <;> rfl
      | initial value =>
          cases value with
          | none =>
              rfl
          | some money =>
              change (entry.filledIn config money).currency =
                money.currency
              unfold Entry.filledIn
              split <;> rfl
      | _ =>
          rfl
  | _ =>
      rfl

end Happening

namespace Engine

variable {engine : Engine}

theorem isNormal_of_turn {task : TaskId} {event : Event} {code : Text}
    (normal : event.HasNormalCode)
    (selects : (engine.turn task event).code? = some code) :
    IsNormal code := by
  cases event with
  | currency chosen =>
      simp only [turn] at selects
      split at selects
      · cases selects
        exact normal
      · cases selects
  | initial value =>
      cases value with
      | none =>
          cases selects
      | some money =>
          cases selects
          exact normal
  | _ =>
      cases selects

/-- Only the turn of a choice of a currency notes an amount. -/
theorem event_of_turn_captured {task : TaskId} {event : Event}
    {capture : Capture}
    (notes : engine.turn task event = .captured capture) :
    event = .currency capture.target := by
  have turns := (engine.turns_turn task event).1
  rw [notes] at turns
  exact (congrArg Prod.snd (List.cons.inj turns).1).symm

/-- All codes that an engine knows are in normal form. -/
structure CodesNormal (engine : Engine) : Prop where
  currency : IsNormal engine.currency
  waiting : ∀ submission ∈ engine.submissions,
    submission.event.HasNormalCode
  targets : ∀ conversion ∈ engine.conversions,
    IsNormal conversion.target

/-- An event whose turn an action is was handed in with its code in normal
form. -/
theorem CodesNormal.hasNormalCode (codes : engine.CodesNormal)
    {number : TaskId} {action : Action}
    (handedIn : ∀ event ∈ action.event?, event.HasNormalCode)
    {submission : Submission}
    (source : engine.IsTurnOf number action submission) :
    submission.event.HasNormalCode := by
  rcases source with ⟨_, rfl⟩ | ⟨_, rest, waiting⟩
  · exact handedIn submission.event rfl
  · refine codes.waiting submission ?_
    rw [waiting]
    exact List.mem_cons_self

theorem CodesNormal.isNormal_of_deed (codes : engine.CodesNormal)
    {number : TaskId} {action : Action}
    (handedIn : ∀ event ∈ action.event?, event.HasNormalCode) {code : Text}
    (selects : (engine.deed number action).code? = some code) :
    IsNormal code := by
  rcases engine.deed_cases number action with
    nothing | ⟨submission, source, _, turn⟩ |
      ⟨conversion, pending, rates, _, _, ends⟩
  · rw [nothing] at selects
    cases selects
  · rw [turn] at selects
    exact isNormal_of_turn (codes.hasNormalCode handedIn source) selects
  · rw [ends] at selects
    cases selects
    exact codes.targets conversion pending

theorem CodesNormal.isNormal_of_captured (codes : engine.CodesNormal)
    {number : TaskId} {action : Action}
    (handedIn : ∀ event ∈ action.event?, event.HasNormalCode)
    {capture : Capture}
    (notes : engine.deed number action = .captured capture) :
    IsNormal capture.target := by
  rcases engine.deed_cases number action with
    nothing | ⟨submission, source, _, turn⟩ | ⟨_, _, rates, _, _, ends⟩
  · rw [nothing] at notes
    cases notes
  · have normal := codes.hasNormalCode handedIn source
    rw [event_of_turn_captured (turn.symm.trans notes)] at normal
    exact normal
  · rw [ends] at notes
    cases notes

theorem CodesNormal.perform (codes : engine.CodesNormal) (number : TaskId)
    {action : Action}
    (handedIn : ∀ event ∈ action.event?, event.HasNormalCode) :
    (engine.perform number action).CodesNormal := by
  -- A code comes from an event that was handed in, perhaps long before: it has
  -- waited with its event, or with a conversion.
  refine ⟨?_, ?_, ?_⟩
  · have changes : (engine.perform number action).currency =
        ((engine.deed number action).effect engine.config
          engine.entry).currency :=
      congrArg Entry.currency (entry_perform engine number action)
    rw [changes, Happening.currency_effect]
    cases selects : (engine.deed number action).code? with
    | none =>
        exact codes.currency
    | some code =>
        exact codes.isNormal_of_deed handedIn selects
  · intro submission member
    rcases submission_of_mem_perform member with
      ⟨_, new⟩ | ⟨earlier, waited, _, sameEvent, _⟩
    · exact handedIn submission.event new
    · rw [← sameEvent]
      exact codes.waiting earlier waited
  · intro conversion member
    rcases conversion_of_mem_perform member with
      notes | ⟨earlier, pending, same, _⟩
    · exact codes.isNormal_of_captured handedIn notes
    · have sameTarget : earlier.target = conversion.target :=
        congrArg Capture.target same
      rw [← sameTarget]
      exact codes.targets earlier pending

theorem codesNormal_runFrom (actions : List Action) {engine : Engine}
    (codes : engine.CodesNormal) (number : TaskId)
    (handedIn : ∀ action ∈ actions, ∀ event ∈ action.event?,
      event.HasNormalCode) :
    (engine.runFrom number actions).CodesNormal := by
  induction actions generalizing engine number with
  | nil =>
      exact codes
  | cons action rest inductionHypothesis =>
      rw [List.forall_mem_cons] at handedIn
      exact inductionHypothesis (codes.perform number handedIn.1)
        (number + 1) handedIn.2

theorem new_codesNormal (config : Config)
    (rates : Option (Option Snapshot)) (base : Option (Option Text)) :
    (new config rates base).CodesNormal :=
  ⟨rfl, nofun, nofun⟩

end Engine

end CurrencyPad
