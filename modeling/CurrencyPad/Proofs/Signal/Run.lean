import CurrencyPad.Proofs.Signal.Wiring
import CurrencyPad.Signal.Network

/-!
# Runs of combinations

While a combination is attached and not held, its value is the one for the values
of its sources.  While it is held nothing is computed, and the end of a hold
computes at most once.  Every step keeps an invariant from which this follows, so
it holds after every run.
-/

namespace CurrencyPad

variable {α : Type}

namespace Wiring

inductive Step (α : Type) where
  | set (source : SignalId) (value : α)
  | start
  | close
  | hold
  | release

/-- Only sources of the combination are set. -/
def Step.IsOn (wiring : Wiring α) : Step α → Prop
  | .set source _ => source ∈ wiring.sources
  | _ => True

def Step.started : Step α → Bool → Bool
  | .start, _ => true
  | .close, _ => false
  | _, before => before

/-- How many holds have not ended after a step. -/
def Step.depth : Step α → Nat → Nat
  | .hold, before => before + 1
  | .release, before => before - 1
  | _, before => before

/-- Whether a new combination is started after some steps. -/
def started (steps : List (Step α)) : Bool :=
  steps.foldl (fun before step => step.started before) false

/-- How many holds of a new combination have not ended after some steps. -/
def depth (steps : List (Step α)) : Nat :=
  steps.foldl (fun before step => step.depth before) 0

theorem depth_concat (steps : List (Step α)) (step : Step α) :
    depth (steps ++ [step]) = step.depth (depth steps) := by
  unfold depth
  rw [List.foldl_append, List.foldl_cons, List.foldl_nil]

variable [BEq α]

def perform (wiring : Wiring α) (network : Network α) : Step α → Outcome α Unit
  | .set source value =>
      (network.set source value).andThen fun _ next => next.done ()
  | .start => network.start wiring.id
  | .close => network.close wiring.id
  | .hold => network.hold wiring.id
  | .release => network.release wiring.name

def run (wiring : Wiring α) (network : Network α) :
    List (Step α) → Outcome α Unit
  | [] => network.done ()
  | step :: rest =>
      (wiring.perform network step).andThen fun _ next => wiring.run next rest

end Wiring

/-! ## Ends of holds -/

variable [BEq α] {wiring : Wiring α} {registered : Nat → Bool}
  {network : Network α} {standing : Standing α}

namespace Wired

/-- A combination that is not held is computed if it is stale. -/
theorem settle (wired : Wired wiring registered network standing) :
    ∃ next nextStanding,
      (if (network.combination? wiring.id).any fun combination =>
            combination.holds == 0 && combination.stale then
          Network.recompute Network.set network wiring.id
        else network.done ()) = ⟨.ok (), next⟩ ∧
        Wired wiring registered next nextStanding ∧
        network.Spares wiring.id next ∧
        (∃ stale,
          nextStanding.combination = { standing.combination with stale }) ∧
        (standing.combination.holds = 0 →
          nextStanding.combination.stale = false) ∧
        (standing.combination.holds ≠ 0 →
          nextStanding.value = standing.value ∧
            nextStanding.computations = standing.computations) ∧
        nextStanding.computations ≤ standing.computations + 1 := by
  rw [Network.combination?_of_standing wired.isStanding, Option.any_some]
  split
  case isTrue due =>
    have isDue : standing.combination.holds = 0 ∧
        standing.combination.stale = true := by
      simpa using due
    obtain ⟨next, nextStanding, computed, recomputes, restands⟩ :=
      Network.recompute_spec 999 wired.isStanding wired.calm wired.total
    have isNext := recomputes.latest_eq
    refine ⟨next, nextStanding, computed, ?_, restands.spares,
      ⟨false, isNext⟩, fun _ => ?_, fun held => absurd isDue.1 held, ?_⟩
    · refine wired.restand_of_keeps restands ⟨_, _, isNext⟩ ?_ ?_
        (recomputes.isCoherent wired.coherent.complete)
      · rw [isNext]
      · rw [isNext]
        exact wired.past
    · rw [isNext]
    · cases recomputes with
      | unready missing =>
          exact Nat.le_succ _
      | computed ready result =>
          exact Nat.le_refl _
  case isFalse notDue =>
    refine ⟨network, standing, rfl, wired, .refl network wiring.id,
      ⟨_, rfl⟩, fun free => ?_, fun _ => ⟨rfl, rfl⟩, Nat.le_succ _⟩
    simpa [free] using notDue

/-- A hold ends. If it is the last one, the combination is not stale any more,
and it was computed at most once. -/
theorem endHold (wired : Wired wiring registered network standing) :
    ∃ next nextStanding,
      network.endHold wiring.id = ⟨.ok (), next⟩ ∧
        Wired wiring registered next nextStanding ∧
        network.Spares wiring.id next ∧
        (∃ stale, nextStanding.combination =
          { standing.combination with
            holds := standing.combination.holds - 1, stale }) ∧
        (standing.combination.holds - 1 = 0 →
          nextStanding.combination.stale = false) ∧
        (standing.combination.holds - 1 ≠ 0 →
          nextStanding.value = standing.value ∧
            nextStanding.computations = standing.computations) ∧
        nextStanding.computations ≤ standing.computations + 1 := by
  have ended := wired.restand_modify (fun combination =>
    { combination with holds := combination.holds - 1 }) fun combination =>
      ⟨combination.attached, combination.holds - 1, rfl⟩
  obtain ⟨next, nextStanding, settled, wired, spares, rest⟩ := ended.settle
  exact ⟨next, nextStanding, settled, wired,
    (network.spares_modifyCombination _ _).trans spares, rest⟩

/-- While a combination is registered with its sources, it holds itself. -/
theorem listen (wired : Wired wiring (fun _ => false) network standing) :
    ∃ next nextStanding,
      Network.attach wiring.id 0 (network.beginHold wiring.id)
          standing.combination.sources = ⟨.ok (), next⟩ ∧
        Wired wiring (fun _ => true) next nextStanding ∧
        Knows wiring wiring.sources.length next nextStanding ∧
        nextStanding.combination.holds = standing.combination.holds + 1 ∧
        nextStanding.value = standing.value ∧
        nextStanding.computations = standing.computations ∧
        network.Spares wiring.id next := by
  have begun := wired.restand_modify (fun combination =>
    { combination with holds := combination.holds + 1 }) fun combination =>
      ⟨combination.attached, combination.holds + 1, rfl⟩
  obtain ⟨next, nextStanding, isNext, attached, knows, keeps, value,
    computations, spares⟩ := Wired.attach List.drop_zero
      (begun.congr_registered fun index _ =>
        decide_eq_false (Nat.not_lt_zero index))
      (fun index before => absurd before (Nat.not_lt_zero index))
      (Nat.succ_ne_zero _)
  rw [wired.sources]
  exact ⟨next, nextStanding, isNext, attached, knows, keeps.holds_eq, value,
    computations, (network.spares_modifyCombination _ _).trans spares⟩

end Wired

/-! ## The invariant -/

/-- The combination stands as its wiring says.  It is registered with all its
sources or with none, and all the holds under its name are its own. -/
structure Running (wiring : Wiring α) (network : Network α)
    (standing : Standing α) : Prop where
  wired : Wired wiring (fun _ => standing.combination.attached) network standing
  knows : standing.combination.attached = true →
    Wired.Knows wiring wiring.sources.length network standing
  settled : standing.combination.holds = 0 → standing.combination.stale = false
  held : network.heldUnder wiring.name =
    List.replicate standing.combination.holds wiring.id

/-- The combination runs on after a step.  While it is held nothing was computed,
and the end of a hold computed at most once. -/
structure Follows (wiring : Wiring α) (step : Wiring.Step α)
    (standing : Standing α) (next : Network α) (nextStanding : Standing α) :
    Prop where
  running : Running wiring next nextStanding
  attached : nextStanding.combination.attached =
    step.started standing.combination.attached
  holds : nextStanding.combination.holds = step.depth standing.combination.holds
  idle : nextStanding.combination.holds ≠ 0 →
    nextStanding.value = standing.value ∧
      nextStanding.computations = standing.computations
  once : step = .release →
    nextStanding.computations ≤ standing.computations + 1

namespace Running

theorem follows_self (running : Running wiring network standing)
    {step : Wiring.Step α}
    (attached : standing.combination.attached =
      step.started standing.combination.attached)
    (holds : standing.combination.holds = step.depth standing.combination.holds) :
    Follows wiring step standing network standing :=
  ⟨running, attached, holds, fun _ => ⟨rfl, rfl⟩, fun _ => Nat.le_succ _⟩

omit [BEq α] in
theorem heldUnder_eq {next : Network α} {id : SignalId}
    (spares : network.Spares id next) (name : Text) :
    next.heldUnder name = network.heldUnder name :=
  congrArg (fun held => (Table.get? held name).getD []) spares.held

theorem set (running : Running wiring network standing) {source : SignalId}
    (member : source ∈ wiring.sources) (value : α) :
    ∃ isNew next nextStanding,
      network.set source value = ⟨.ok isNew, next⟩ ∧
        Follows wiring (.set source value) standing next nextStanding := by
  obtain ⟨isNew, next, nextStanding, isSet, wired, keeps, sameHeld, knows,
    fresh, idle⟩ := running.wired.setSource member value
  have attached : nextStanding.combination.attached =
      standing.combination.attached := by
    obtain ⟨latest, stale, isNext⟩ := keeps
    rw [isNext]
  refine ⟨isNew, next, nextStanding, isSet, ⟨?_, fun isAttached => ?_,
    fun free => ?_, ?_⟩, attached, keeps.holds_eq, fun isHeld => ?_, nofun⟩
  · rwa [attached]
  · rw [attached] at isAttached
    exact knows (fun _ => isAttached) (running.knows isAttached)
  · rw [keeps.holds_eq] at free
    exact fresh free (running.settled free)
  · rw [keeps.holds_eq, ← running.held]
    exact congrArg (fun held => (Table.get? held wiring.name).getD []) sameHeld
  · rw [keeps.holds_eq] at isHeld
    exact idle isHeld

theorem start (running : Running wiring network standing) :
    ∃ next nextStanding,
      network.start wiring.id = ⟨.ok (), next⟩ ∧
        Follows wiring .start standing next nextStanding := by
  have wired := running.wired
  unfold Network.start Network.withCombination
  rw [Network.combination?_of_standing wired.isStanding]
  dsimp only
  cases isAttached : standing.combination.attached with
  | true =>
      exact ⟨network, standing, rfl, running.follows_self isAttached rfl⟩
  | false =>
      rw [isAttached] at wired
      obtain ⟨middle, middleStanding, isMiddle, attached, knows, middleHolds,
        value, computations, spares⟩ := wired.listen
      have marked := attached.restand_modify (fun combination =>
        { combination with attached := true }) fun combination =>
          ⟨true, combination.holds, rfl⟩
      obtain ⟨next, nextStanding, isNext, ended, endSpares, ⟨stale, isEnded⟩,
        fresh, idle, _⟩ := marked.endHold
      have holds : (middleStanding.modify fun combination =>
          { combination with attached := true }).combination.holds - 1 =
            standing.combination.holds :=
        congrArg (· - 1) middleHolds
      have nextAttached : nextStanding.combination.attached = true := by
        rw [isEnded]
        rfl
      have nextHolds : nextStanding.combination.holds =
          standing.combination.holds := by
        rw [isEnded]
        exact holds
      rw [holds] at fresh idle
      have allSpared := (middle.spares_modifyCombination _ _).trans endSpares
      refine ⟨next, nextStanding, ?_, ⟨?_, fun _ => ?_, fun free => ?_, ?_⟩,
        nextAttached, nextHolds, fun isHeld => ?_, nofun⟩
      · rw [if_neg Bool.false_ne_true, isMiddle]
        exact isNext
      · rwa [nextAttached]
      · refine knows.of_spares allSpared attached.distinct ?_
        rw [isEnded]
        rfl
      · exact fresh (nextHolds ▸ free)
      · rw [heldUnder_eq (spares.trans allSpared), nextHolds]
        exact running.held
      · obtain ⟨nextValue, nextComputations⟩ := idle (nextHolds ▸ isHeld)
        exact ⟨nextValue.trans value, nextComputations.trans computations⟩

theorem close (running : Running wiring network standing) :
    ∃ next nextStanding,
      network.close wiring.id = ⟨.ok (), next⟩ ∧
        Follows wiring .close standing next nextStanding := by
  have wired := running.wired
  unfold Network.close Network.withCombination
  rw [Network.combination?_of_standing wired.isStanding]
  dsimp only
  cases isAttached : standing.combination.attached with
  | false =>
      exact ⟨network, standing, rfl, running.follows_self isAttached rfl⟩
  | true =>
      rw [isAttached] at wired
      obtain ⟨detached, spares⟩ := Wired.detach List.drop_zero
        (wired.congr_registered fun index _ =>
          decide_eq_true (Nat.zero_le index))
      rw [if_pos rfl, wired.sources]
      have closed := detached.restand_modify (fun combination =>
        { combination with attached := false }) fun combination =>
          ⟨false, combination.holds, rfl⟩
      refine ⟨_, standing.modify fun combination =>
        { combination with attached := false }, rfl,
        ⟨closed, nofun, running.settled, ?_⟩, rfl, rfl, fun _ => ⟨rfl, rfl⟩,
        nofun⟩
      rw [heldUnder_eq (spares.trans (Network.spares_modifyCombination _ _ _))]
      exact running.held

theorem hold (running : Running wiring network standing) :
    ∃ next nextStanding,
      network.hold wiring.id = ⟨.ok (), next⟩ ∧
        Follows wiring .hold standing next nextStanding := by
  have wired := running.wired
  have isNamed : ((network.signal? wiring.id).map (·.name)).getD [] =
      wiring.name := by
    have named : ((network.signal? wiring.id).map Signal.facet).map (·.name) =
        some wiring.name :=
      wired.named
    rw [Option.map_map] at named
    exact congrArg (Option.getD · []) named
  unfold Network.hold Network.withCombination
  rw [Network.combination?_of_standing wired.isStanding]
  dsimp only
  rw [isNamed]
  have noted := wired.withHeld (network.held.set wiring.name
    (wiring.id :: network.heldUnder wiring.name))
  have begun := noted.restand_modify (fun combination =>
    { combination with holds := combination.holds + 1 }) fun combination =>
      ⟨combination.attached, combination.holds + 1, rfl⟩
  have spares := Network.spares_modifyCombination { network with
    held := network.held.set wiring.name
      (wiring.id :: network.heldUnder wiring.name) } wiring.id
    fun combination => { combination with holds := combination.holds + 1 }
  refine ⟨_, standing.modify fun combination =>
    { combination with holds := combination.holds + 1 }, rfl,
    ⟨begun, fun isAttached => ?_, nofun, ?_⟩, rfl, rfl, fun _ => ⟨rfl, rfl⟩,
    nofun⟩
  · exact ((running.knows isAttached).withHeld _).of_spares spares
      wired.distinct rfl
  · rw [Network.beginHold, heldUnder_eq spares, Network.heldUnder,
      Table.get?_set, if_pos rfl, Option.getD_some, running.held]
    rfl

theorem release (running : Running wiring network standing) :
    ∃ next nextStanding,
      network.release wiring.name = ⟨.ok (), next⟩ ∧
        Follows wiring .release standing next nextStanding := by
  unfold Network.release
  rw [running.held]
  cases isHeld : standing.combination.holds with
  | zero =>
      refine ⟨network, standing, rfl, running.follows_self rfl ?_⟩
      rw [isHeld]
      rfl
  | succ count =>
      rw [List.replicate_succ]
      dsimp only
      have noted := running.wired.withHeld
        (network.held.set wiring.name (List.replicate count wiring.id))
      obtain ⟨next, nextStanding, isNext, ended, spares, ⟨stale, isEnded⟩,
        fresh, idle, once⟩ := noted.endHold
      have nextHolds : nextStanding.combination.holds =
          standing.combination.holds - 1 := by
        rw [isEnded]
      have nextAttached : nextStanding.combination.attached =
          standing.combination.attached := by
        rw [isEnded]
      refine ⟨next, nextStanding, isNext, ⟨?_, fun isAttached => ?_,
        fun free => ?_, ?_⟩, nextAttached, nextHolds, fun stillHeld => ?_,
        fun _ => once⟩
      · rwa [nextAttached]
      · refine ((running.knows (nextAttached ▸ isAttached)).withHeld _).of_spares
          spares running.wired.distinct ?_
        rw [isEnded]
      · exact fresh (nextHolds ▸ free)
      · rw [heldUnder_eq spares, nextHolds, isHeld, Network.heldUnder,
          Table.get?_set, if_pos rfl]
        rfl
      · exact idle (nextHolds ▸ stillHeld)

/-! ## Runs -/

theorem perform (running : Running wiring network standing)
    {step : Wiring.Step α} (isOn : step.IsOn wiring) :
    ∃ next nextStanding,
      wiring.perform network step = ⟨.ok (), next⟩ ∧
        Follows wiring step standing next nextStanding := by
  cases step with
  | set source value =>
      obtain ⟨isNew, next, nextStanding, isSet, follows⟩ :=
        running.set isOn value
      refine ⟨next, nextStanding, ?_, follows⟩
      rw [Wiring.perform, isSet]
      rfl
  | start =>
      exact running.start
  | close =>
      exact running.close
  | hold =>
      exact running.hold
  | release =>
      exact running.release

theorem run (running : Running wiring network standing)
    {steps : List (Wiring.Step α)} (areOn : ∀ step ∈ steps, step.IsOn wiring) :
    ∃ next nextStanding, wiring.run network steps = ⟨.ok (), next⟩ ∧
      Running wiring next nextStanding ∧
      nextStanding.combination.attached =
        steps.foldl (fun before step => step.started before)
          standing.combination.attached ∧
      nextStanding.combination.holds =
        steps.foldl (fun before step => step.depth before)
          standing.combination.holds := by
  induction steps generalizing network standing with
  | nil =>
      exact ⟨network, standing, rfl, running, rfl, rfl⟩
  | cons step rest inductionHypothesis =>
      rw [List.forall_mem_cons] at areOn
      obtain ⟨middle, middleStanding, performed, follows⟩ :=
        running.perform areOn.1
      obtain ⟨next, nextStanding, isRun, runs, attached, holds⟩ :=
        inductionHypothesis follows.running areOn.2
      refine ⟨next, nextStanding, ?_, runs, ?_, ?_⟩
      · rw [Wiring.run, performed]
        exact isRun
      · rw [attached, follows.attached]
        rfl
      · rw [holds, follows.holds]
        rfl

/-- What a combination knows while it is attached are the values of its
sources. -/
theorem latest_eq (running : Running wiring network standing)
    (attached : standing.combination.attached = true) :
    standing.combination.latest = wiring.sources.map network.value? := by
  refine List.ext_getElem? fun index => ?_
  rw [List.getElem?_map]
  cases isSource : wiring.sources[index]? with
  | none =>
      have beyond := List.getElem?_eq_none_iff.mp isSource
      rw [← running.wired.length] at beyond
      exact List.getElem?_eq_none beyond
  | some source =>
      have inside := (List.getElem?_eq_some_iff.mp isSource).1
      rw [running.knows attached index inside source isSource,
        Network.value_view]
      rfl

end Running

/-! ## New combinations -/

namespace Wiring

def combination (wiring : Wiring α) : Combination α where
  sources := wiring.sources
  optional := wiring.optional
  combine arguments := .ok (wiring.compute arguments)
  latest := List.replicate wiring.sources.length none
  attached := false
  holds := 0
  stale := false

/-- The combination was made and nothing was done with it.  At least one of its
sources is required, and the listeners of all signals concerned are quiet. -/
structure IsNew (wiring : Wiring α) (network : Network α) : Prop where
  combination : network.combination? wiring.id = some wiring.combination
  named : (network.signal? wiring.id).map (·.name) = some wiring.name
  unset : network.value? wiring.id = none
  free : network.heldUnder wiring.name = []
  distinct : wiring.id ∉ wiring.sources
  exist : ∀ source ∈ wiring.sources, (network.signal? source).isSome = true
  required : ∃ index < wiring.sources.length, index ∉ wiring.optional
  only : network.OnlySubscribers
  quiet : ∀ id ∈ wiring.id :: wiring.sources,
    ∀ listener ∈ network.listeners id,
      Network.IsQuiet network.view.known listener

/-- There is a value if and only if all required sources have one, and it is the
one for the values of the sources. -/
def IsCurrent (wiring : Wiring α) (network : Network α) : Prop :=
  ((network.value? wiring.id).isSome = true ↔
    ∀ (index : Nat) (source : SignalId),
      wiring.sources[index]? = some source → index ∉ wiring.optional →
        (network.value? source).isSome = true) ∧
  ∀ value, network.value? wiring.id = some value →
    value = wiring.compute (wiring.sources.map network.value?) ∨
      (value == wiring.compute (wiring.sources.map network.value?)) = true

omit [BEq α] in
/-- A combination of signals that are found is added as its wiring says. -/
theorem addCombination_eq (label : Text) (names : List Text)
    (found : names.map network.find? = wiring.sources.map some) :
    network.addCombination wiring.name label names wiring.optional
        (fun arguments => .ok (wiring.compute arguments)) =
      ⟨.ok (), network.addSignal
        ⟨wiring.name, label, .new none, some wiring.combination⟩⟩ := by
  have isSources : names.filterMap network.find? = wiring.sources := by
    have same := congrArg (List.filterMap fun source => source) found
    simpa [List.filterMap_map, Function.comp_def] using same
  have allFound : names.find? (fun name => (network.find? name).isNone) =
      none := by
    rw [List.find?_eq_none]
    intro name member
    have isFound : network.find? name ∈ wiring.sources.map some := by
      rw [← found]
      exact List.mem_map_of_mem member
    obtain ⟨source, _, same⟩ := List.mem_map.mp isFound
    rw [← same]
    exact Bool.false_ne_true
  unfold Network.addCombination
  rw [allFound]
  dsimp only
  rw [isSources]
  rfl

omit [BEq α] in
/-- A combination is new when it was just made of signals whose listeners are
quiet. -/
theorem isNew_addCombination (label : Text) (names : List Text)
    (isLast : wiring.id = network.signals.length)
    (found : names.map network.find? = wiring.sources.map some)
    (exist : ∀ source ∈ wiring.sources, (network.signal? source).isSome = true)
    (required : ∃ index < wiring.sources.length, index ∉ wiring.optional)
    (free : network.heldUnder wiring.name = [])
    (only : network.OnlySubscribers)
    (quiet : ∀ source ∈ wiring.sources, ∀ listener ∈ network.listeners source,
      Network.IsQuiet network.view.known listener) :
    ∃ next,
      network.addCombination wiring.name label names wiring.optional
          (fun arguments => .ok (wiring.compute arguments)) =
        ⟨.ok (), next⟩ ∧ wiring.IsNew next := by
  have before : ∀ source ∈ wiring.sources, source ≠ network.signals.length := by
    rintro source member rfl
    have isSome := exist _ member
    rw [Network.signal?, List.getElem?_eq_none (Nat.le_refl _)] at isSome
    cases isSome
  have isSignal := network.signal?_addSignal
    ⟨wiring.name, label, .new none, some wiring.combination⟩
  have atId := (isSignal wiring.id).trans (if_pos isLast)
  refine ⟨_, addCombination_eq label names found, ?_⟩
  refine
    { combination := ?_
      named := ?_
      unset := ?_
      free := free
      distinct := fun member => before _ member isLast
      exist := fun source member => ?_
      required := required
      only := only
      quiet := fun id member listener isListener => ?_ }
  · rw [Network.combination?, atId]
    rfl
  · rw [atId]
    rfl
  · rw [Network.value?, atId]
    rfl
  · rw [isSignal, if_neg (before source member)]
    exact exist source member
  · rw [Network.listeners, isSignal] at isListener
    rcases List.mem_cons.mp member with rfl | isSource
    · rw [if_pos isLast] at isListener
      cases isListener
    · rw [if_neg (before id isSource)] at isListener
      exact quiet id isSource listener isListener

theorem IsNew.running (isNew : wiring.IsNew network) :
    ∃ standing, Running wiring network standing ∧
      standing.combination.attached = false ∧
      standing.combination.holds = 0 := by
  obtain ⟨signal, isSignal, isCombination⟩ :=
    Option.bind_eq_some_iff.mp isNew.combination
  have isUnset : signal.cell.value = none := by
    have unset := isNew.unset
    rw [Network.value?, isSignal] at unset
    exact unset
  refine ⟨⟨wiring.combination, none, network.computations⟩,
    ⟨?_, fun isAttached => absurd isAttached Bool.false_ne_true, fun _ => rfl,
      isNew.free⟩, rfl, rfl⟩
  refine
    { isStanding := View.standing?_eq_some_iff.mpr
        ⟨signal.facet, congrArg (Option.map Signal.facet) isSignal,
          isCombination, isUnset, rfl⟩
      named := ?_
      sources := rfl
      optional := rfl
      total := rfl
      length := List.length_replicate
      calm := ⟨isNew.only, isNew.quiet wiring.id List.mem_cons_self⟩
      distinct := isNew.distinct
      facets := fun source member => ?_
      listeners := fun source member listener isListener =>
        .inl (isNew.quiet source (List.mem_cons_of_mem _ member) listener
          isListener)
      past := fun index value isKnown => ?_
      coherent := ⟨fun _ arguments ready => ?_,
        fun isSome => absurd isSome Bool.false_ne_true⟩ }
  · exact (Option.map_map _ _ _).trans isNew.named
  · obtain ⟨cell, isCell⟩ :=
      Option.isSome_iff_exists.mp (isNew.exist source member)
    refine ⟨cell.facet, congrArg (Option.map Signal.facet) isCell,
      fun index => ?_⟩
    have unregistered : .source wiring.id index ∉ cell.cell.listeners := by
      intro isListener
      have quiet := isNew.quiet source (List.mem_cons_of_mem _ member)
        (.source wiring.id index)
      rw [Network.listeners, isCell] at quiet
      exact quiet isListener
    refine (List.count_eq_zero_of_not_mem unregistered).trans ?_
    split <;> rfl
  · have isMissing : (List.replicate wiring.sources.length none)[index]? =
        some (some value) :=
      isKnown
    rw [List.getElem?_replicate] at isMissing
    split at isMissing <;> cases isMissing
  · -- Nothing is known yet, so a required source is missing.
    obtain ⟨index, inside, isRequired⟩ := isNew.required
    obtain ⟨known, _⟩ := Network.arguments?_eq_some_iff.mp ready
    refine absurd (known index ?_) isRequired
    exact List.getElem?_replicate_of_lt inside

omit [BEq α] in
/-- What is missing is optional if and only if all that is required is there. -/
theorem optional_of_missing_iff (wiring : Wiring α) (network : Network α) :
    (∀ index : Nat,
      (wiring.sources.map network.value?)[index]? = some none →
        index ∈ wiring.optional) ↔
      ∀ (index : Nat) (source : SignalId),
        wiring.sources[index]? = some source → index ∉ wiring.optional →
          (network.value? source).isSome = true := by
  simp only [List.getElem?_map, Option.map_eq_some_iff,
    Option.isSome_iff_ne_none]
  grind

/-- While the combination is attached and not held, its value is the one for the
values of the sources. -/
theorem isCurrent_of_running (running : Running wiring network standing)
    (attached : standing.combination.attached = true)
    (free : standing.combination.holds = 0) : wiring.IsCurrent network := by
  have wired := running.wired
  have latest := running.latest_eq attached
  have isValue := Network.value?_of_standing wired.isStanding
  have ready_iff := wiring.optional_of_missing_iff network
  rw [← latest, ← wired.optional] at ready_iff
  unfold IsCurrent
  rw [isValue, ← wired.optional, ← ready_iff]
  refine ⟨⟨fun isSome => ?_, fun known => ?_⟩, fun value isKnown => ?_⟩
  · obtain ⟨arguments, ready⟩ :=
      Option.isSome_iff_exists.mp (wired.coherent.complete isSome)
    exact (Network.arguments?_eq_some_iff.mp ready).1
  · obtain ⟨value, isKnown, _⟩ := wired.coherent.current (running.settled free) _
      (Network.arguments?_eq_some_iff.mpr ⟨known, rfl⟩)
    exact Option.isSome_iff_exists.mpr ⟨value, isKnown⟩
  · obtain ⟨arguments, ready⟩ := Option.isSome_iff_exists.mp
      (wired.coherent.complete (Option.isSome_iff_exists.mpr ⟨value, isKnown⟩))
    obtain ⟨other, isOther, computed⟩ :=
      wired.coherent.current (running.settled free) arguments ready
    obtain ⟨_, same⟩ := Network.arguments?_eq_some_iff.mp ready
    rw [isKnown] at isOther
    cases isOther
    rwa [← same, latest] at computed

/-- Whatever is done with a new combination and its sources, it has the value for
the values of its sources while it is started and not held.  While it is held
nothing is computed and its value stays, and the end of a hold computes at most
once. -/
theorem isCurrent_of_run (isNew : wiring.IsNew network) {steps : List (Step α)}
    (areOn : ∀ step ∈ steps, step.IsOn wiring) :
    ∃ middle, wiring.run network steps = ⟨.ok (), middle⟩ ∧
      middle.isStarted wiring.id = ⟨.ok (started steps), middle⟩ ∧
      (started steps = true → depth steps = 0 → wiring.IsCurrent middle) ∧
      ∀ step : Step α, step.IsOn wiring →
        ∃ next, wiring.perform middle step = ⟨.ok (), next⟩ ∧
          (depth (steps ++ [step]) ≠ 0 →
            next.value? wiring.id = middle.value? wiring.id ∧
              next.computations = middle.computations) ∧
          (step = .release →
            next.computations ≤ middle.computations + 1) := by
  obtain ⟨standing, running, newAttached, newHolds⟩ := isNew.running
  obtain ⟨middle, middleStanding, isRun, runs, attached, holds⟩ :=
    running.run areOn
  rw [newAttached] at attached
  rw [newHolds] at holds
  have isStanding := runs.wired.isStanding
  refine ⟨middle, isRun, ?_, fun isStarted isFree => ?_, fun step isOn => ?_⟩
  · obtain ⟨index, inside, _⟩ := isNew.required
    have some : wiring.sources.isEmpty = false := by
      rw [List.isEmpty_eq_false_iff]
      exact List.ne_nil_of_length_pos (Nat.zero_lt_of_lt inside)
    unfold Network.isStarted Network.withCombination
    rw [Network.combination?_of_standing isStanding]
    dsimp only
    rw [runs.wired.sources, some, attached]
    exact congrArg (fun isStarted => (⟨.ok isStarted, middle⟩ : Outcome α Bool))
      (Bool.and_true _)
  · exact isCurrent_of_running runs (attached.trans isStarted)
      (holds.trans isFree)
  · obtain ⟨next, nextStanding, performed, follows⟩ := runs.perform isOn
    have isNext := follows.running.wired.isStanding
    refine ⟨next, performed, ?_⟩
    rw [depth_concat, depth, ← holds, ← follows.holds,
      Network.value?_of_standing isStanding, Network.value?_of_standing isNext,
      Network.computations_of_standing isStanding,
      Network.computations_of_standing isNext]
    exact ⟨follows.idle, follows.once⟩

def total : Wiring Nat where
  id := 2
  name := ['t']
  sources := [0, 1]
  optional := [1]
  compute arguments :=
    arguments.foldl (fun total argument => total + argument.getD 0) 0

/-- The signals of `total`, in which a subscriber cancels itself. -/
def totalParts : Network Nat :=
  (((Network.empty.addCell ['p'] ['p'] none).addCell ['r'] ['r'] (some 4)
    ).subscribe ['s'] 0 (.subscriber ['l'] (.cancel ['s'])) true).network

def totalNetwork : Network Nat :=
  (totalParts.addCombination total.name ['t'] [['p'], ['r']] total.optional
    fun arguments => .ok (total.compute arguments)).network

theorem isNew_total : total.IsNew totalNetwork := by
  have single : totalParts.subscriptions =
      [(['s'], ⟨0, .subscriber ['l'] (.cancel ['s']), true⟩)] :=
    rfl
  have first : totalParts.listeners 0 =
      [.subscriber ['l'] (.cancel ['s'])] :=
    rfl
  have second : totalParts.listeners 1 = [] := rfl
  have isKnown : totalParts.view.known ['s'] = true := rfl
  have only : totalParts.OnlySubscribers := by
    intro name subscription isSubscription
    rw [single, Table.get?_cons] at isSubscription
    split at isSubscription
    · cases isSubscription
      exact ⟨_, _, rfl⟩
    · cases isSubscription
  have quiet : ∀ source ∈ total.sources,
      ∀ listener ∈ totalParts.listeners source,
        Network.IsQuiet totalParts.view.known listener := by
    simp [total, first, second, Network.IsQuiet, isKnown]
  obtain ⟨next, made, isNew⟩ := isNew_addCombination ['t'] [['p'], ['r']]
    (rfl : total.id = totalParts.signals.length) rfl (by decide) (by decide) rfl
    only quiet
  rw [totalNetwork, made]
  exact isNew

theorem isCurrent_of_run_total :
    (∀ step ∈ [Step.hold, .start, .set 0 3, .set 0 5, .release],
      step.IsOn total) ∧
    ∃ middle,
      total.run totalNetwork [.hold, .start, .set 0 3, .set 0 5, .release] =
        ⟨.ok (), middle⟩ ∧ total.IsCurrent middle ∧
          middle.value? total.id = some 9 ∧ middle.computations = 1 := by
  have areOn : ∀ step ∈ [Step.hold, .start, .set 0 3, .set 0 5, .release],
      step.IsOn total := by
    simp [Step.IsOn, total]
  obtain ⟨middle, isRun, _, isCurrent, _⟩ := isCurrent_of_run isNew_total areOn
  have value : (total.run totalNetwork
      [.hold, .start, .set 0 3, .set 0 5, .release]).network.value? total.id =
        some 9 := by
    decide +kernel
  have computations : (total.run totalNetwork
      [.hold, .start, .set 0 3, .set 0 5, .release]).network.computations =
        1 := by
    decide +kernel
  rw [isRun] at value computations
  exact ⟨areOn, middle, isRun, isCurrent rfl rfl, value, computations⟩

end Wiring

end CurrencyPad
