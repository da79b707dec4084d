import CurrencyPad.Proofs.Signal.View

/-!
# Standings of combinations

How a combination stands is told by its cache, its value and the number of its
computations.  Hearing of a source changes the cache and makes the combination
compute, or note that it is stale if it is held.  A combination that is not stale
has the value for its cache.
-/

namespace CurrencyPad

variable {α : Type}

/-- How a combination stands: its cache, its value and the number of computations
so far. -/
structure Standing (α : Type) where
  combination : Combination α
  value : Option α
  computations : Nat

namespace View

variable {view : View α} {id : SignalId} {standing other : Standing α}

/-- How the combination of a signal stands in a view. -/
def standing? (view : View α) (id : SignalId) : Option (Standing α) :=
  (view.facet id).bind fun facet =>
    facet.combination.map fun combination =>
      ⟨combination, facet.value, view.computations⟩

/-- The view in which the combination of a signal stands otherwise. -/
def withStanding (view : View α) (id : SignalId) (standing : Standing α) :
    View α :=
  { view.modify id fun facet =>
      { facet with
        value := standing.value
        combination := some standing.combination } with
    computations := standing.computations }

theorem standing?_eq_some_iff :
    view.standing? id = some standing ↔
      ∃ facet, view.facet id = some facet ∧
        facet.combination = some standing.combination ∧
        facet.value = standing.value ∧
        view.computations = standing.computations := by
  unfold standing?
  rw [Option.bind_eq_some_iff]
  constructor
  · rintro ⟨facet, isFacet, isStanding⟩
    obtain ⟨combination, isCombination, rfl⟩ :=
      Option.map_eq_some_iff.mp isStanding
    exact ⟨facet, isFacet, isCombination, rfl, rfl⟩
  · rintro ⟨facet, isFacet, isCombination, value, computations⟩
    refine ⟨facet, isFacet, ?_⟩
    rw [isCombination, Option.map_some, value, computations]

theorem standing?_withStanding (isStanding : view.standing? id = some other) :
    (view.withStanding id standing).standing? id = some standing := by
  obtain ⟨facet, isFacet, _⟩ := standing?_eq_some_iff.mp isStanding
  refine standing?_eq_some_iff.mpr
    ⟨{ facet with
        value := standing.value
        combination := some standing.combination }, ?_, rfl, rfl, rfl⟩
  unfold withStanding modify
  dsimp only
  rw [Function.update_self, isFacet]
  rfl

theorem facet_withStanding_of_ne {source : SignalId} (ne : source ≠ id) :
    (view.withStanding id standing).facet source = view.facet source :=
  Function.update_of_ne ne _ _

theorem value_withStanding_of_ne {source : SignalId} (ne : source ≠ id) :
    (view.withStanding id standing).value source = view.value source := by
  rw [value, facet_withStanding_of_ne ne, value]

theorem modify_eq_withStanding (change : Facet α → Facet α)
    (other : Standing α) (isStanding : view.standing? id = some standing)
    (same : ∀ facet, facet.combination = some standing.combination →
      facet.value = standing.value →
        change facet =
          { facet with
            value := other.value
            combination := some other.combination })
    (computations : other.computations = standing.computations) :
    view.modify id change = view.withStanding id other := by
  obtain ⟨facet, isFacet, isCombination, value, count⟩ :=
    standing?_eq_some_iff.mp isStanding
  unfold withStanding modify
  rw [isFacet, Option.map_some, Option.map_some,
    same facet isCombination value, computations, ← count]

theorem withStanding_self (isStanding : view.standing? id = some standing) :
    view.withStanding id standing = view := by
  rw [← modify_eq_withStanding (fun facet => facet) standing isStanding
    (fun facet isCombination value => ?_) rfl]
  · exact Network.modify_eq_self fun _ _ => rfl
  · rw [← isCombination, ← value]

theorem withStanding_computations (isStanding : view.standing? id = some standing)
    (count : Nat) :
    view.withStanding id { standing with computations := count } =
      { view with computations := count } := by
  have facets := congrArg View.facet (withStanding_self isStanding)
  exact congrArg (fun facet =>
    ({ view with facet, computations := count } : View α)) facets

theorem withStanding_withStanding :
    (view.withStanding id other).withStanding id standing =
      view.withStanding id standing := by
  unfold withStanding modify
  dsimp only
  rw [Function.update_self, Function.update_idem]
  cases view.facet id <;> rfl

end View

def Standing.modify (standing : Standing α)
    (change : Combination α → Combination α) : Standing α :=
  { standing with combination := change standing.combination }

namespace Network

def isMissing (combination : Combination α) : Bool :=
  combination.latest.zipIdx.any fun entry =>
    entry.1.isNone && !combination.optional.contains entry.2

theorem isMissing_eq_false_iff (combination : Combination α) :
    isMissing combination = false ↔
      ∀ index, combination.latest[index]? = some none →
        index ∈ combination.optional := by
  unfold isMissing
  rw [List.any_eq_false]
  constructor
  · intro each index isMissing
    have member : (none, index) ∈ combination.latest.zipIdx :=
      List.mk_mem_zipIdx_iff_getElem?.mpr isMissing
    simpa using each (none, index) member
  · rintro known ⟨value, index⟩ member isMissing
    have isValue := List.mk_mem_zipIdx_iff_getElem?.mp member
    cases value with
    | some value =>
        cases isMissing
    | none =>
        have isOptional := known index isValue
        simp [isOptional] at isMissing

theorem arguments?_eq (combination : Combination α) :
    arguments? combination =
      if isMissing combination then none else some combination.latest :=
  rfl

theorem arguments?_eq_some_iff {combination : Combination α}
    {arguments : List (Option α)} :
    arguments? combination = some arguments ↔
      (∀ index, combination.latest[index]? = some none →
        index ∈ combination.optional) ∧ combination.latest = arguments := by
  rw [arguments?_eq, ← isMissing_eq_false_iff]
  cases isMissing combination <;> simp

end Network

/-- The standing of a combination that knows the value of a source. -/
def Standing.learn (standing : Standing α) (index : Nat) (value : α) :
    Standing α :=
  standing.modify fun combination =>
    { combination with latest := combination.latest.set index (some value) }

/-- Knowing more values, a combination still knows all that it needs. -/
theorem Standing.arguments?_learn {standing : Standing α} {index : Nat}
    {value : α}
    (ready : (Network.arguments? standing.combination).isSome = true) :
    (Network.arguments? (standing.learn index value).combination).isSome =
      true := by
  obtain ⟨arguments, isReady⟩ := Option.isSome_iff_exists.mp ready
  obtain ⟨known, _⟩ := Network.arguments?_eq_some_iff.mp isReady
  refine Option.isSome_iff_exists.mpr
    ⟨_, Network.arguments?_eq_some_iff.mpr ⟨fun other missing => ?_, rfl⟩⟩
  refine known other ?_
  have isSet : (standing.combination.latest.set index (some value))[other]? =
      some none := missing
  rw [List.getElem?_set] at isSet
  split at isSet
  · split at isSet <;> cases isSet
  · exact isSet

/-- A combination computes its value anew, if all that it needs is there.  An
equal value stays as it is. -/
inductive Recomputes [BEq α] (compute : List (Option α) → α)
    (standing : Standing α) : Standing α → Prop
  | unready (missing : Network.arguments? standing.combination = none) :
      Recomputes compute standing (standing.modify ({ · with stale := false }))
  | computed {arguments : List (Option α)} {value : α}
      (ready : Network.arguments? standing.combination = some arguments)
      (result : value = compute arguments ∨
        standing.value = some value ∧ (value == compute arguments) = true) :
      Recomputes compute standing
        ⟨{ standing.combination with stale := false }, some value,
          standing.computations + 1⟩

/-- A combination hears of the value of a source. -/
inductive Hears [BEq α] (compute : List (Option α) → α) (value : α)
    (index : Nat) (standing : Standing α) : Standing α → Prop
  | held (isHeld : standing.combination.holds ≠ 0) :
      Hears compute value index standing
        ((standing.learn index value).modify ({ · with stale := true }))
  | free {next : Standing α} (isFree : standing.combination.holds = 0)
      (recomputes : Recomputes compute (standing.learn index value) next) :
      Hears compute value index standing next

inductive Told [BEq α] (compute : List (Option α) → α) (id : SignalId)
    (value : α) : List Listener → Standing α → Standing α → Prop
  | nothing (standing : Standing α) : Told compute id value [] standing standing
  | subscriber {label : Text} {reaction : Reaction} {rest : List Listener}
      {standing next : Standing α}
      (told : Told compute id value rest standing next) :
      Told compute id value (.subscriber label reaction :: rest) standing next
  | source {index : Nat} {rest : List Listener}
      {standing middle next : Standing α}
      (hears : Hears compute value index standing middle)
      (told : Told compute id value rest middle next) :
      Told compute id value (.source id index :: rest) standing next

variable [BEq α] {compute : List (Option α) → α} {standing next : Standing α}
  {value : α} {index : Nat} {id : SignalId} {listeners : List Listener}

/-- Only the cache of the combination differs, and whether it is stale. -/
def Standing.Keeps (standing next : Standing α) : Prop :=
  ∃ latest stale, next.combination = { standing.combination with latest, stale }

omit [BEq α] in
theorem Standing.Keeps.trans {last : Standing α} (first : standing.Keeps next)
    (second : next.Keeps last) : standing.Keeps last := by
  obtain ⟨_, _, isNext⟩ := first
  obtain ⟨latest, stale, isLast⟩ := second
  rw [isNext] at isLast
  exact ⟨latest, stale, isLast⟩

omit [BEq α] in
theorem Standing.Keeps.holds_eq (keeps : standing.Keeps next) :
    next.combination.holds = standing.combination.holds := by
  obtain ⟨_, _, isNext⟩ := keeps
  rw [isNext]

omit [BEq α] in
theorem Standing.Keeps.combine_eq (keeps : standing.Keeps next) :
    next.combination.combine = standing.combination.combine := by
  obtain ⟨_, _, isNext⟩ := keeps
  rw [isNext]

theorem Recomputes.latest_eq (recomputes : Recomputes compute standing next) :
    next.combination = { standing.combination with stale := false } := by
  cases recomputes <;> rfl

theorem Hears.spec (hears : Hears compute value index standing next) :
    standing.Keeps next ∧
      next.combination.latest =
        standing.combination.latest.set index (some value) ∧
      (standing.combination.holds = 0 → next.combination.stale = false) ∧
      (standing.combination.holds ≠ 0 →
        next.value = standing.value ∧
          next.computations = standing.computations) := by
  cases hears with
  | held isHeld =>
      exact ⟨⟨_, _, rfl⟩, rfl, fun isFree => absurd isFree isHeld,
        fun _ => ⟨rfl, rfl⟩⟩
  | free isFree recomputes =>
      have same := recomputes.latest_eq
      refine ⟨⟨_, _, same⟩, ?_, fun _ => ?_, fun isHeld => absurd isFree isHeld⟩
      · rw [same]
        rfl
      · rw [same]

theorem Told.keeps (told : Told compute id value listeners standing next) :
    standing.Keeps next := by
  induction told with
  | nothing standing =>
      exact ⟨_, _, rfl⟩
  | subscriber told inductionHypothesis =>
      exact inductionHypothesis
  | source hears told inductionHypothesis =>
      exact hears.spec.1.trans inductionHypothesis

/-- Exactly the sources as which the combination is told change in its cache. -/
theorem Told.latest_eq (told : Told compute id value listeners standing next)
    (position : Nat) :
    next.combination.latest[position]? =
      if .source id position ∈ listeners then
        standing.combination.latest[position]?.map fun _ => some value
      else standing.combination.latest[position]? := by
  induction told with
  | nothing standing =>
      rw [if_neg List.not_mem_nil]
  | subscriber told inductionHypothesis =>
      rw [inductionHypothesis]
      simp
  | @source index rest standing middle next hears told inductionHypothesis =>
      obtain ⟨_, learned, _⟩ := hears.spec
      rw [inductionHypothesis, learned, List.getElem?_set]
      by_cases here : index = position
      · subst here
        rw [if_pos rfl, if_pos List.mem_cons_self]
        by_cases known : index < standing.combination.latest.length
        · rw [if_pos known, List.getElem?_eq_getElem known]
          simp
        · rw [if_neg known, List.getElem?_eq_none (Nat.not_lt.mp known)]
          simp
      · rw [if_neg here]
        have others : Listener.source id position ∈
            Listener.source id index :: rest ↔
              Listener.source id position ∈ rest := by
          simp [Ne.symm here]
        simp only [others]

theorem Told.length_eq (told : Told compute id value listeners standing next) :
    next.combination.latest.length = standing.combination.latest.length := by
  induction told with
  | nothing standing =>
      rfl
  | subscriber told inductionHypothesis =>
      exact inductionHypothesis
  | source hears told inductionHypothesis =>
      obtain ⟨_, learned, _⟩ := hears.spec
      rw [inductionHypothesis, learned, List.length_set]

theorem Told.held (told : Told compute id value listeners standing next)
    (isHeld : standing.combination.holds ≠ 0) :
    next.value = standing.value ∧
      next.computations = standing.computations := by
  induction told with
  | nothing standing =>
      exact ⟨rfl, rfl⟩
  | subscriber told inductionHypothesis =>
      exact inductionHypothesis isHeld
  | source hears told inductionHypothesis =>
      obtain ⟨keeps, _, _, same⟩ := hears.spec
      obtain ⟨value, computations⟩ := same isHeld
      obtain ⟨nextValue, nextComputations⟩ :=
        inductionHypothesis (keeps.holds_eq ▸ isHeld)
      exact ⟨nextValue.trans value, nextComputations.trans computations⟩

theorem Told.free (told : Told compute id value listeners standing next)
    (isFree : standing.combination.holds = 0)
    (fresh : standing.combination.stale = false) :
    next.combination.stale = false := by
  induction told with
  | nothing standing =>
      exact fresh
  | subscriber told inductionHypothesis =>
      exact inductionHypothesis isFree fresh
  | source hears told inductionHypothesis =>
      obtain ⟨keeps, _, stale, _⟩ := hears.spec
      exact inductionHypothesis (keeps.holds_eq ▸ isFree) (stale isFree)

/-- The value was computed from what the combination knows, unless it is stale,
and there is none as long as something required is missing. -/
structure Standing.IsCoherent (compute : List (Option α) → α)
    (standing : Standing α) : Prop where
  current : standing.combination.stale = false →
    ∀ arguments, Network.arguments? standing.combination = some arguments →
      ∃ value, standing.value = some value ∧
        (value = compute arguments ∨ (value == compute arguments) = true)
  complete : standing.value.isSome = true →
    (Network.arguments? standing.combination).isSome = true

theorem Recomputes.isCoherent (recomputes : Recomputes compute standing next)
    (complete : standing.value.isSome = true →
      (Network.arguments? standing.combination).isSome = true) :
    next.IsCoherent compute := by
  cases recomputes with
  | unready missing =>
      refine ⟨fun _ arguments ready => ?_, complete⟩
      have isMissing : Network.arguments? standing.combination =
          some arguments := ready
      rw [missing] at isMissing
      cases isMissing
  | computed ready result =>
      refine ⟨fun _ arguments isReady => ?_, fun _ => ?_⟩
      · have same : Network.arguments? standing.combination =
            some arguments := isReady
        rw [ready] at same
        cases same
        exact ⟨_, rfl, result.imp_right (·.2)⟩
      · have same : Network.arguments? { standing.combination with
            stale := false } = Network.arguments? standing.combination := rfl
        rw [same, ready]
        rfl

theorem Hears.isCoherent (hears : Hears compute value index standing next)
    (coherent : standing.IsCoherent compute) : next.IsCoherent compute := by
  cases hears with
  | held isHeld =>
      refine ⟨nofun, fun isSome => ?_⟩
      exact Standing.arguments?_learn (coherent.complete isSome)
  | free isFree recomputes =>
      refine recomputes.isCoherent fun isSome => ?_
      exact Standing.arguments?_learn (coherent.complete isSome)

theorem Told.isCoherent (told : Told compute id value listeners standing next)
    (coherent : standing.IsCoherent compute) : next.IsCoherent compute := by
  induction told with
  | nothing standing =>
      exact coherent
  | subscriber told inductionHypothesis =>
      exact inductionHypothesis coherent
  | source hears told inductionHypothesis =>
      exact inductionHypothesis (hears.isCoherent coherent)

end CurrencyPad
