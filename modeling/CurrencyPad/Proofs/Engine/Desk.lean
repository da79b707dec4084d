import CurrencyPad.Pad.Task
import CurrencyPad.Proofs.Pad.Entry

/-!
# Desks

A desk is an engine without signals, listeners and displays: what is entered,
which rates are known, which events wait for their turn, and which conversions
are pending.  A step of a desk is one happening, and a run says what becomes of
the entry whatever the order of the happenings is.
-/

namespace CurrencyPad

/-- What a choice of currency notes at its turn. -/
structure Capture where
  task : TaskId
  source : Text
  target : Text
  amount : Binary64.Finite

namespace PendingConversion

def capture (conversion : PendingConversion) : Capture :=
  ⟨conversion.task, conversion.source, conversion.target,
    conversion.amount⟩

/-- A conversion looks for rates: it receives those that are known, or waits. -/
def looking (rates : Option Snapshot)
    (conversion : PendingConversion) : PendingConversion :=
  match rates with
  | some rates => { conversion with read := .received (some rates) }
  | none => { conversion with read := .waiting }

/-- A conversion that waits receives the first rates it is told of. -/
def told (rates : Snapshot)
    (conversion : PendingConversion) : PendingConversion :=
  match conversion.read with
  | .waiting => { conversion with read := .received (some rates) }
  | _ => conversion

@[simp]
theorem capture_looking
    (rates : Option Snapshot) (conversion : PendingConversion) :
    (conversion.looking rates).capture = conversion.capture := by
  cases rates <;> rfl

@[simp]
theorem capture_told
    (rates : Snapshot) (conversion : PendingConversion) :
    (conversion.told rates).capture = conversion.capture := by
  unfold told
  split <;> rfl

end PendingConversion

inductive Happening where
  /-- Nothing that matters to the desk. -/
  | nothing
  /-- An event is handed in. -/
  | submitted (task : TaskId) (event : Event)
  /-- An event that is no choice of currency is applied at its turn. -/
  | applied (task : TaskId) (event : Event)
  /-- A choice of currency without an amount is applied at its turn. -/
  | selected (task : TaskId) (code : Text)
  /-- A choice of currency with an amount notes it at its turn. -/
  | captured (capture : Capture)
  | looked (task : TaskId)
  /-- New rates are told. -/
  | told (rates : Snapshot)
  /-- A conversion ends with the rates that it received. -/
  | converted (capture : Capture) (rates : Snapshot)

namespace Happening

/-- What a happening makes of the entry. -/
def effect (config : Config) (entry : Entry) : Happening → Entry
  | .applied _ event => entry.apply config event
  | .selected _ code => entry.select code none
  | .converted capture rates =>
      entry.select capture.target
        (Entry.convertedText? config rates capture.source capture.target
          capture.amount)
  | _ => entry

def submissions : Happening → List (TaskId × Event)
  | .submitted task event => [(task, event)]
  | _ => []

def turns : Happening → List (TaskId × Event)
  | .applied task event => [(task, event)]
  | .selected task code => [(task, .currency code)]
  | .captured capture => [(capture.task, .currency capture.target)]
  | _ => []

def captures : Happening → List Capture
  | .captured capture => [capture]
  | _ => []

def conversions : Happening → List Capture
  | .converted capture _ => [capture]
  | _ => []

end Happening

structure Desk where
  entry : Entry
  rates : Option Snapshot
  queue : List (TaskId × Event)
  conversions : List PendingConversion

namespace Desk

/-- One happening on a desk.  The entry changes in three of them: an event has
its turn, a currency is selected at its turn, or a conversion ends. -/
inductive Step (config : Config) : Desk → Happening → Desk → Prop
  | nothing (desk : Desk) :
      Step config desk .nothing desk
  | submit (desk : Desk) (task : TaskId) (event : Event) :
      Step config desk (.submitted task event)
        { desk with queue := desk.queue ++ [(task, event)] }
  | apply (desk : Desk) {task : TaskId} {event : Event}
      {rest : List (TaskId × Event)}
      (first : desk.queue = (task, event) :: rest)
      (noChoice : ∀ code, event ≠ .currency code) :
      Step config desk (.applied task event)
        { desk with
          entry := desk.entry.apply config event
          queue := rest }
  | select (desk : Desk) {task : TaskId} {code : Text}
      {rest : List (TaskId × Event)}
      (first : desk.queue = (task, .currency code) :: rest)
      (nothing : desk.entry.amountFor? config code = none) :
      Step config desk (.selected task code)
        { desk with
          entry := desk.entry.select code none
          queue := rest }
  | capture (desk : Desk) {task : TaskId} {code : Text}
      {amount : Binary64.Finite} {rest : List (TaskId × Event)}
      (first : desk.queue = (task, .currency code) :: rest)
      (entered : desk.entry.amountFor? config code = some amount) :
      Step config desk
        (.captured ⟨task, desk.entry.currency, code, amount⟩)
        { desk with
          queue := rest
          conversions :=
            desk.conversions ++
              [⟨task, desk.entry.currency, code, amount, .requested⟩] }
  | look (desk : Desk) {before after : List PendingConversion}
      {conversion : PendingConversion}
      (pending : desk.conversions = before ++ conversion :: after)
      (requested : conversion.read = .requested) :
      Step config desk (.looked conversion.task)
        { desk with
          conversions :=
            before ++ conversion.looking desk.rates :: after }
  | tell (desk : Desk) (rates : Snapshot) :
      Step config desk (.told rates)
        { desk with
          rates := some rates
          conversions := desk.conversions.map (·.told rates) }
  | convert (desk : Desk) {before after : List PendingConversion}
      {conversion : PendingConversion} {rates : Snapshot}
      (pending : desk.conversions = before ++ conversion :: after)
      (received : conversion.read = .received (some rates)) :
      Step config desk (.converted conversion.capture rates)
        { desk with
          entry :=
            desk.entry.select conversion.target
              (Entry.convertedText? config rates conversion.source
                conversion.target conversion.amount)
          conversions := before ++ after }

/-- Happenings one after another. -/
inductive Run (config : Config) : Desk → List Happening → Desk → Prop
  | nil (desk : Desk) :
      Run config desk [] desk
  | cons {first middle last : Desk} {happening : Happening}
      {rest : List Happening}
      (step : Step config first happening middle)
      (run : Run config middle rest last) :
      Run config first (happening :: rest) last

variable {config : Config} {first last : Desk}

theorem Step.entry {happening : Happening}
    (step : Step config first happening last) :
    last.entry = happening.effect config first.entry := by
  cases step <;> rfl

/-- The entry comes from the effects of all happenings in their order. -/
theorem Run.entry {happenings : List Happening}
    (run : Run config first happenings last) :
    last.entry =
      happenings.foldl (Happening.effect config) first.entry := by
  induction run with
  | nil =>
      rfl
  | cons step _ inductionHypothesis =>
      rw [inductionHypothesis, step.entry, List.foldl_cons]

theorem Step.queue {happening : Happening}
    (step : Step config first happening last) :
    first.queue ++ happening.submissions =
      happening.turns ++ last.queue := by
  cases step with
  | nothing =>
      exact List.append_nil _
  | submit =>
      rfl
  | apply waiting =>
      exact (List.append_nil _).trans waiting
  | select waiting =>
      exact (List.append_nil _).trans waiting
  | capture waiting =>
      exact (List.append_nil _).trans waiting
  | look =>
      exact List.append_nil _
  | tell =>
      exact List.append_nil _
  | convert =>
      exact List.append_nil _

/-- Events have their turns once each and in the order in which they were
handed in. -/
theorem Run.queue {happenings : List Happening}
    (run : Run config first happenings last) :
    first.queue ++ happenings.flatMap Happening.submissions =
      happenings.flatMap Happening.turns ++ last.queue := by
  induction run with
  | nil =>
      exact List.append_nil _
  | cons step _ inductionHypothesis =>
      rw [List.flatMap_cons, List.flatMap_cons, ← List.append_assoc,
        step.queue, List.append_assoc, inductionHypothesis,
        List.append_assoc]

/-- If what a desk holds is accounted for in every step, by what arrives and
what leaves, then it is accounted for in every run. -/
theorem Run.perm_of_step {α : Type}
    {held : Desk → List α} {arriving leaving : Happening → List α}
    (accounted : ∀ {first last : Desk} {happening : Happening},
      Step config first happening last →
        (held first ++ arriving happening).Perm
          (leaving happening ++ held last))
    {happenings : List Happening}
    (run : Run config first happenings last) :
    (held first ++ happenings.flatMap arriving).Perm
      (happenings.flatMap leaving ++ held last) := by
  induction run with
  | nil =>
      exact List.Perm.of_eq (List.append_nil _)
  | @cons first middle last happening rest step _ inductionHypothesis =>
      have now := (accounted step).append_right (rest.flatMap arriving)
      have later := inductionHypothesis.append_left (leaving happening)
      rw [List.flatMap_cons, List.flatMap_cons]
      simp only [List.append_assoc] at now later ⊢
      exact now.trans later

/-- What the pending conversions of a desk have noted. -/
def captures (desk : Desk) : List Capture :=
  desk.conversions.map (·.capture)

theorem Step.captures {happening : Happening}
    (step : Step config first happening last) :
    (first.captures ++ happening.captures).Perm
      (happening.conversions ++ last.captures) := by
  cases step with
  | capture =>
      simp only [Desk.captures, List.map_append]
      exact List.Perm.refl _
  | look pending =>
      simp only [Desk.captures, pending, List.map_append, List.map_cons,
        PendingConversion.capture_looking]
      exact List.Perm.of_eq (List.append_nil _)
  | tell rates =>
      have sameCaptures :
          PendingConversion.capture ∘ (·.told rates) =
            PendingConversion.capture :=
        funext (PendingConversion.capture_told rates)
      simp only [Desk.captures, List.map_map, sameCaptures]
      exact List.Perm.of_eq (List.append_nil _)
  | convert pending =>
      simp only [Desk.captures, pending, List.map_append, List.map_cons]
      exact (List.Perm.of_eq (List.append_nil _)).trans List.perm_middle
  | _ =>
      exact List.Perm.of_eq (List.append_nil _)

/-- Of the conversions that were pending or began, each has ended once or is
pending still, with what it noted when it began. -/
theorem Run.captures {happenings : List Happening}
    (run : Run config first happenings last) :
    (first.captures ++ happenings.flatMap Happening.captures).Perm
      (happenings.flatMap Happening.conversions ++ last.captures) :=
  run.perm_of_step Step.captures

end Desk

end CurrencyPad
