import CurrencyPad.Proofs.Signal.Scene
import Mathlib.Data.List.Chain

/-!
# Ledgers of subscriptions

A ledger keeps account of the subscriptions to a signal: who listens, and what was
cancelled.  It tells how often each listener is registered and what a subscriber
hears.
-/

namespace CurrencyPad

variable {α : Type}

namespace Subscriptions

inductive Step (α : Type) where
  | subscribe (name : Text) (listener : Listener) (replay : Bool)
  | cancel (name : Text)
  | set (value : α)

/-- A subscription that was made under a name. -/
structure Handle where
  name : Text
  listener : Listener
  active : Bool

def latest? (ledger : List Handle) (name : Text) : Option Handle :=
  ledger.find? (·.name = name)

/-- The ledger after the latest subscription under a name is cancelled. -/
def close (name : Text) : List Handle → List Handle
  | [] => []
  | handle :: rest =>
    if handle.name = name then { handle with active := false } :: rest
    else handle :: close name rest

def actives (ledger : List Handle) : List Listener :=
  (ledger.filter (·.active)).map (·.listener)

/-- The number of a subscriber's subscriptions that are in force. -/
def activesOf (label : Text) (ledger : List Handle) : Nat :=
  (actives ledger).countP (·.hearer = .subscriber label)

def Step.after (ledger : List Handle) : Step α → List Handle
  | .subscribe name listener _ => ⟨name, listener, true⟩ :: ledger
  | .cancel name => close name ledger
  | .set _ => ledger

def follow (ledger : List Handle) (steps : List (Step α)) : List Handle :=
  steps.foldl Step.after ledger

def names (steps : List (Step α)) : List Text :=
  steps.filterMap fun
    | .subscribe name _ _ => some name
    | _ => none

def listeners (steps : List (Step α)) : List Listener :=
  steps.filterMap fun
    | .subscribe _ listener _ => some listener
    | _ => none

def values (steps : List (Step α)) : List α :=
  steps.filterMap fun
    | .set value => some value
    | _ => none

/-- Only subscriptions of the ledger are cancelled. -/
def CancelsOwn : List Handle → List (Step α) → Prop
  | _, [] => True
  | ledger, step :: rest =>
    (∀ name, step = .cancel name → (latest? ledger name).isSome = true) ∧
      CancelsOwn (step.after ledger) rest

variable {ledger : List Handle} {name label : Text} {handle : Handle}

theorem mem_names_cons {step : Step α} {rest : List (Step α)}
    (member : name ∈ names rest) : name ∈ names (step :: rest) := by
  unfold names at member ⊢
  rw [List.filterMap_cons]
  split
  · exact member
  · exact List.mem_cons_of_mem _ member

theorem mem_listeners_cons {listener : Listener} {step : Step α}
    {rest : List (Step α)} (member : listener ∈ listeners rest) :
    listener ∈ listeners (step :: rest) := by
  unfold listeners at member ⊢
  rw [List.filterMap_cons]
  split
  · exact member
  · exact List.mem_cons_of_mem _ member

theorem latest?_close (name other : Text) (ledger : List Handle) :
    latest? (close name ledger) other =
      if other = name then
        (latest? ledger name).map ({ · with active := false })
      else latest? ledger other := by
  induction ledger with
  | nil =>
      simp [close, latest?]
  | cons handle rest inductionHypothesis =>
      unfold latest? at inductionHypothesis ⊢
      unfold close
      split
      case isTrue same =>
        subst same
        by_cases here : other = handle.name
        · simp [here]
        · simp [here, Ne.symm here]
      case isFalse differs =>
        by_cases here : other = name
        · simp [here, differs] at inductionHypothesis ⊢
          exact inductionHypothesis
        · simp only [here, if_false] at inductionHypothesis ⊢
          rw [List.find?_cons, List.find?_cons, inductionHypothesis]

variable {holds : Listener → Prop}

theorem forall_close (all : ∀ handle ∈ ledger, holds handle.listener) :
    ∀ handle ∈ close name ledger, holds handle.listener := by
  induction ledger with
  | nil =>
      exact all
  | cons first rest inductionHypothesis =>
      rw [List.forall_mem_cons] at all
      unfold close
      split
      · exact List.forall_mem_cons.mpr all
      · exact List.forall_mem_cons.mpr ⟨all.1, inductionHypothesis all.2⟩

/-- What holds of all listeners that are subscribed holds of those of the
ledger. -/
theorem forall_after {step : Step α} {rest : List (Step α)}
    (all : ∀ handle ∈ ledger, holds handle.listener)
    (new : ∀ listener ∈ listeners (step :: rest), holds listener) :
    ∀ handle ∈ step.after ledger, holds handle.listener := by
  cases step with
  | subscribe name listener replay =>
      exact List.forall_mem_cons.mpr ⟨new listener List.mem_cons_self, all⟩
  | cancel name =>
      exact forall_close all
  | set =>
      exact all

/-- A subscription that is cancelled is in force no more. -/
theorem actives_close (isLatest : latest? ledger name = some handle) :
    (handle.active = true →
        (actives ledger).Perm (handle.listener :: actives (close name ledger))) ∧
      (handle.active = false → close name ledger = ledger) := by
  induction ledger with
  | nil =>
      cases isLatest
  | cons first rest inductionHypothesis =>
      unfold latest? at isLatest inductionHypothesis
      rw [List.find?_cons] at isLatest
      unfold close
      split at isLatest
      case h_1 same =>
        cases isLatest
        rw [if_pos (of_decide_eq_true same)]
        constructor
        · intro active
          simp [actives, active]
        · intro inactive
          obtain ⟨_, _, _⟩ := handle
          cases inactive
          rfl
      case h_2 differs =>
        rw [if_neg (of_decide_eq_false differs)]
        obtain ⟨removed, kept⟩ := inductionHypothesis isLatest
        constructor
        · intro active
          have rest := removed active
          unfold actives at rest ⊢
          by_cases firstActive : first.active = true
          · simp only [List.filter_cons, firstActive, if_true, List.map_cons]
            exact (rest.cons _).trans (.swap ..)
          · simp only [List.filter_cons, firstActive]
            exact rest
        · intro inactive
          rw [kept inactive]

theorem follow_append (before after : List (Step α)) :
    follow ledger (before ++ after) = follow (follow ledger before) after :=
  List.foldl_append

theorem cancelsOwn_append {before after : List (Step α)}
    (cancelsOwn : CancelsOwn ledger (before ++ after)) :
    CancelsOwn ledger before ∧ CancelsOwn (follow ledger before) after := by
  induction before generalizing ledger with
  | nil =>
      exact ⟨trivial, cancelsOwn⟩
  | cons step rest inductionHypothesis =>
      obtain ⟨first, others⟩ := inductionHypothesis cancelsOwn.2
      exact ⟨⟨cancelsOwn.1, first⟩, others⟩

theorem actives_close_sublist (name : Text) (ledger : List Handle) :
    (actives (close name ledger)).Sublist (actives ledger) := by
  induction ledger with
  | nil =>
      exact .refl _
  | cons handle rest inductionHypothesis =>
      unfold close
      split
      · by_cases active : handle.active = true
        · simp [actives, active]
        · simp [actives, active]
      · by_cases active : handle.active = true
        · simpa [actives, active] using inductionHypothesis
        · simpa [actives, active] using inductionHypothesis

theorem activesOf_subscribe {listener : Listener}
    (other : listener.hearer ≠ .subscriber label) (name : Text)
    (ledger : List Handle) :
    activesOf label (⟨name, listener, true⟩ :: ledger) =
      activesOf label ledger := by
  simp [activesOf, actives, other]

theorem activesOf_subscribe_self {listener : Listener}
    (isHearer : listener.hearer = .subscriber label) :
    activesOf label (⟨name, listener, true⟩ :: ledger) =
      activesOf label ledger + 1 := by
  simp [activesOf, actives, isHearer]

/-- Without a new subscription a subscriber has no more of them. -/
theorem activesOf_follow_le (ledger : List Handle) {steps : List (Step α)}
    (noNew : ∀ listener ∈ listeners steps,
      listener.hearer ≠ .subscriber label) :
    activesOf label (follow ledger steps) ≤ activesOf label ledger := by
  induction steps generalizing ledger with
  | nil =>
      exact le_rfl
  | cons step rest inductionHypothesis =>
      have others := inductionHypothesis (step.after ledger)
        fun listener member => noNew listener (mem_listeners_cons member)
      refine others.trans ?_
      cases step with
      | subscribe name listener replay =>
          exact (activesOf_subscribe (noNew listener List.mem_cons_self) name
            ledger).le
      | cancel name =>
          exact (actives_close_sublist name ledger).countP_le
      | set value =>
          exact le_rfl

section Told

variable [BEq α]

def Step.value (current : Option α) : Step α → Option α
  | .set value =>
    if current.any (· == value) then current else some value
  | _ => current

/-- What a subscriber is told in a step: the value once for each subscription in
force, if it is new, or the present value at its own replay. -/
def Step.told (label : Text) (current : Option α) (ledger : List Handle) :
    Step α → List α
  | .subscribe _ listener replay =>
    if replay = true ∧ listener.hearer = .subscriber label then current.toList
    else []
  | .cancel _ => []
  | .set value =>
    if current.any (· == value) then []
    else List.replicate (activesOf label ledger) value

def told (label : Text) : Option α → List Handle → List (Step α) → List α
  | _, _, [] => []
  | current, ledger, step :: rest =>
    step.told label current ledger ++
      told label (step.value current) (step.after ledger) rest

/-- The values that differ from those before them, which are the values of the
settings that change a signal. -/
def changes : Option α → List α → List α
  | _, [] => []
  | current, value :: rest =>
    if current.any (· == value) then changes current rest
    else value :: changes (some value) rest

/-- A subscriber without a subscription in force is told nothing. -/
theorem told_of_none (current : Option α) {steps : List (Step α)}
    (noNew : ∀ listener ∈ listeners steps,
      listener.hearer ≠ .subscriber label)
    (none : activesOf label ledger = 0) :
    told label current ledger steps = [] := by
  induction steps generalizing ledger current with
  | nil =>
      rfl
  | cons step rest inductionHypothesis =>
      have restNew : ∀ listener ∈ listeners rest,
          listener.hearer ≠ .subscriber label :=
        fun listener member => noNew listener (mem_listeners_cons member)
      rw [told]
      cases step with
      | subscribe name listener replay =>
          have other := noNew listener List.mem_cons_self
          rw [Step.told, if_neg fun both => other both.2]
          exact inductionHypothesis current restNew
            ((activesOf_subscribe other name ledger).trans none)
      | cancel name =>
          refine inductionHypothesis current restNew (Nat.le_zero.mp ?_)
          rw [← none]
          exact (actives_close_sublist name ledger).countP_le
      | set value =>
          rw [Step.told, none, List.replicate_zero, ite_self]
          exact inductionHypothesis _ restNew none

/-- A subscriber with one subscription in force is told of every change. -/
theorem told_of_single (current : Option α) {steps : List (Step α)}
    (noNew : ∀ listener ∈ listeners steps,
      listener.hearer ≠ .subscriber label)
    (before : activesOf label ledger = 1)
    (after : activesOf label (follow ledger steps) = 1) :
    told label current ledger steps = changes current (values steps) := by
  induction steps generalizing ledger current with
  | nil =>
      rfl
  | cons step rest inductionHypothesis =>
      have restNew : ∀ listener ∈ listeners rest,
          listener.hearer ≠ .subscriber label :=
        fun listener member => noNew listener (mem_listeners_cons member)
      rw [told]
      cases step with
      | subscribe name listener replay =>
          have other := noNew listener List.mem_cons_self
          rw [Step.told, if_neg fun both => other both.2]
          exact inductionHypothesis current restNew
            ((activesOf_subscribe other name ledger).trans before) after
      | cancel name =>
          -- It is still in force at the end, so it was not this one.
          have least := activesOf_follow_le (close name ledger) restNew
          have most : activesOf label (close name ledger) ≤
              activesOf label ledger :=
            (actives_close_sublist name ledger).countP_le
          have kept : activesOf label (close name ledger) = 1 :=
            le_antisymm (before ▸ most) (after ▸ least)
          exact inductionHypothesis current restNew kept after
      | set value =>
          have rest := fun current =>
            inductionHypothesis current restNew before after
          show (if _ then [] else _) ++ told label (if _ then _ else _) ledger _
            = changes current (value :: values _)
          rw [changes, before]
          split
          · exact rest current
          · rw [rest (some value)]
            rfl

/-- No value is equal to the one before it. -/
theorem isChain_changes (current : Option α) (values : List α) :
    (current.toList ++ changes current values).IsChain
      fun earlier later => (earlier == later) = false := by
  induction values generalizing current with
  | nil =>
      cases current with
      | none =>
          exact .nil
      | some value =>
          exact .singleton value
  | cons value rest inductionHypothesis =>
      rw [changes]
      split
      case isTrue =>
        exact inductionHypothesis current
      case isFalse new =>
        have others := inductionHypothesis (some value)
        cases current with
        | none =>
            exact others
        | some old =>
            refine .cons_cons ?_ others
            exact Bool.eq_false_iff.mpr new

end Told

end Subscriptions

end CurrencyPad
