import CurrencyPad.Exchange.Conversion
import CurrencyPad.Proofs.Decimal.Precision
import CurrencyPad.Proofs.Money.Shown

/-!
# Guarded computations with amounts

A guarded computation looks at every double just before it is used and breaks
off where the double cannot be used: only finite doubles are rounded and are
amounts of money, and a rounded double must fit into the precision. Amounts are
finite, whatever the rates are, so no guarded computation with them breaks off.
-/

namespace CurrencyPad

/-- Why a guarded computation breaks off. -/
inductive Break where
  /-- A double cannot be rounded to places. -/
  | rounding (error : Number.Infinite)
  /-- A double is no amount of money. -/
  | amount (value : Float)
  /-- What is no number is compared with a number. -/
  | comparison
  /-- A rate whose inverse is asked for is zero. -/
  | zeroDivisor
  /-- The value of a number alone is asked for, and there is none. -/
  | noValue

/-- A computation that does not break off goes on with what it gives. -/
theorem Break.ok_bind {α β : Type} (x : α) (next : α → Except Break β) :
    (Except.ok x >>= next) = next x := rfl

namespace Number

/-- A double rounded to places within reach, in the precision that is set for
it. -/
def roundGuarded (x : Float) (places : Nat) : Except Break ExtendedDecimal :=
  if placesReach < places then .error (.rounding ⟨x⟩)
  else
    match Binary64.toDecimal x with
    | .finite d =>
        match d.quantize? (d.roundingPrecision places) places with
        | some result =>
            .ok (.finite (if result.isZero then .zero else result))
        | none => .error (.rounding ⟨x⟩)
    | .infinite _ => .error (.rounding ⟨x⟩)
    | .undefined => .ok .undefined

/-- The precision is enough for every double, so rounding breaks off where the
double is infinite or the places are out of reach, and nowhere else. -/
theorem roundGuarded_eq_round (x : Float) (places : Nat) :
    roundGuarded x places = (round x places).mapError .rounding := by
  rw [roundGuarded, round, Int.natAbs_natCast, roundExtended]
  split
  · rfl
  · cases Binary64.toDecimal x with
    | finite d =>
        dsimp only
        rw [d.quantize?_eq_some]
        rfl
    | infinite negative =>
        rfl
    | undefined =>
        rfl

theorem roundGuarded_eq {x : Float} (finite : x.isFinite = true)
    {places : Nat} (inReach : places ≤ placesReach) :
    roundGuarded x places = .ok (roundExtended x places) := by
  obtain ⟨d, isFinite, _⟩ := Money.roundExtended_spec finite places
  rw [roundGuarded_eq_round, round, Int.natAbs_natCast,
    if_neg (Nat.not_lt.mpr inReach), isFinite]
  rfl

end Number

namespace Money

open Number

variable {config : Config} {locale : Locale}

def guarded (amount : Float) (code : Text) : Except Break Money :=
  match Binary64.Finite.ofFloat? amount with
  | some finite => .ok (Money.of finite code)
  | none => .error (.amount amount)

@[simp]
theorem guarded_eq (amount : Binary64.Finite) (code : Text) :
    guarded amount.value code = .ok (Money.of amount code) := by
  rw [guarded, Binary64.Finite.ofFloat?, dif_pos amount.isFinite]

theorem decimals_le (config : Config) (code : Text) :
    decimals config code ≤ placesReach := by
  have fiat := config.fiatDecimalsBound
  have crypto := config.cryptoDecimalsBound
  unfold decimals placesReach
  split <;> omega

/-- Whether a rounded double is at least as far from zero as a whole number. -/
def reachesGuarded (limit : Nat) : ExtendedDecimal → Except Break Bool
  | .undefined => .error .comparison
  | d => .ok (reaches limit d)

def inUnitGuarded (x : Float) (unit : AmountUnit) :
    Except Break ExtendedDecimal :=
  roundGuarded (x / Float.ofNat unit.scale) shortPlaces

theorem inUnitGuarded_eq (x : Binary64.Finite) {unit : AmountUnit}
    (member : unit ∈ AmountUnit.all) :
    inUnitGuarded x.value unit = .ok (inUnit x.value unit) := by
  obtain ⟨_, _, _, _, _, divisor, least⟩ := unit_spec member
  exact roundGuarded_eq (Binary64.isFinite_div x.isFinite divisor least)
    (by decide)

theorem reachesGuarded_inUnit (limit : Nat) (x : Binary64.Finite)
    {unit : AmountUnit} (member : unit ∈ AmountUnit.all) :
    reachesGuarded limit (inUnit x.value unit) =
      .ok (reaches limit (inUnit x.value unit)) := by
  obtain ⟨d, isFinite, _⟩ := inUnit_spec x member
  rw [isFinite]
  rfl

/-- An abbreviated amount in one of some units, or in the unit that is larger than
all of them. -/
def shortTextGuarded (locale : Locale) (x : Float)
    (larger : Option AmountUnit) : List AmountUnit → Except Break Text
  | [] => do
      let rounded ← roundGuarded x shortPlaces
      return plainExtended locale false rounded
  | unit :: smaller => do
      if Float.ofNat unit.scale ≤ x.abs then
        let counted ← inUnitGuarded x unit
        match ← reachesGuarded 1000 counted, larger with
        | true, some larger =>
            let counted ← inUnitGuarded x larger
            return plainExtended locale false counted ++ [larger.letter]
        | _, _ =>
            return plainExtended locale false counted ++ [unit.letter]
      else shortTextGuarded locale x (some unit) smaller

/-- The text of an amount in the unit that is chosen for it, if one is. -/
private def unitText (locale : Locale) (x : Float) :
    Option AmountUnit → Text
  | some unit => plainExtended locale false (inUnit x unit) ++ [unit.letter]
  | none => plainExtended locale false (roundExtended x shortPlaces)

private theorem shortTextGuarded_unitText (locale : Locale)
    (x : Binary64.Finite) {larger : Option AmountUnit}
    (known : ∀ unit ∈ larger, unit ∈ AmountUnit.all)
    {units : List AmountUnit} (each : ∀ unit ∈ units, unit ∈ AmountUnit.all) :
    shortTextGuarded locale x.value larger units =
      .ok (unitText locale x.value (chooseUnit? x.value larger units)) := by
  induction units generalizing larger with
  | nil =>
      rw [shortTextGuarded, roundGuarded_eq x.isFinite (by decide)]
      rfl
  | cons unit smaller inductionHypothesis =>
      rw [List.forall_mem_cons] at each
      rw [shortTextGuarded, chooseUnit?]
      split
      · rw [inUnitGuarded_eq x each.1, Break.ok_bind,
          reachesGuarded_inUnit 1000 x each.1, Break.ok_bind]
        cases large : reaches 1000 (inUnit x.value unit) with
        | false =>
            rfl
        | true =>
            cases larger with
            | none =>
                rfl
            | some next =>
                dsimp only
                rw [inUnitGuarded_eq x (known next rfl)]
                rfl
      · refine inductionHypothesis ?_ each.2
        rintro other ⟨⟩
        exact each.1

theorem shortTextGuarded_eq (locale : Locale) (x : Binary64.Finite) :
    shortTextGuarded locale x.value none AmountUnit.all =
      .ok (shortText locale x.value) := by
  have none : ∀ unit ∈ (none : Option AmountUnit), unit ∈ AmountUnit.all := by
    intro unit member
    cases member
  rw [shortTextGuarded_unitText locale x none fun _ member => member,
    shortText]
  cases chooseUnit? x.value .none AmountUnit.all <;> rfl

def formatGuarded (config : Config) (short : Bool) (money : Money) :
    Except Break ShownMoney := do
  let x := money.amount.value
  let places := decimals config money.currency
  let text ←
    if short = false then
      (roundGuarded x places).map (plainExtended config.locale false)
    else if isAbbreviated config money then
      shortTextGuarded config.locale x none AmountUnit.all
    else (roundGuarded x places).map (plainExtended config.locale true)
  return ⟨text, money.currency⟩

/-- Every amount can be shown in full and in short form. -/
theorem formatGuarded_eq (config : Config) (short : Bool) (money : Money) :
    formatGuarded config short money = .ok (format config short money) := by
  have rounded := roundGuarded_eq money.amount.isFinite
    (decimals_le config money.currency)
  unfold formatGuarded format
  cases short with
  | false =>
      dsimp only
      rw [if_pos rfl, rounded]
      rfl
  | true =>
      dsimp only
      rw [if_neg (by decide), compactText]
      split
      · rw [shortTextGuarded_eq]
        rfl
      · rw [rounded]
        rfl

def amountTextGuarded (config : Config) (amount : Float) (code : Text) :
    Except Break Text := do
  let money ← guarded amount code
  let shown ← formatGuarded config false money
  return shown.amount

theorem amountTextGuarded_eq (config : Config) (amount : Binary64.Finite)
    (code : Text) :
    amountTextGuarded config amount.value code =
      .ok (fullText config (Money.of amount code)) := by
  rw [amountTextGuarded, guarded_eq, Break.ok_bind, formatGuarded_eq]
  rfl

end Money

namespace Snapshot

def inverseGuarded (rate : Float) : Except Break Float :=
  if rate == 0 then .error .zeroDivisor else .ok (1 / rate)

def directFactorGuarded (snapshot : Snapshot) (source target : Text) :
    Except Break (Option Float) :=
  if source = target then .ok (some 1)
  else
    match snapshot.quote? source target, snapshot.quote? target source with
    | some rate, _ => .ok (some rate)
    | none, some opposite => (inverseGuarded opposite).map some
    | none, none => .ok none

def pivotFactorGuarded (snapshot : Snapshot) (source target : Text) :
    Except Break (Option Float) :=
  match snapshot.pivot with
  | none => .ok none
  | some pivot => do
      if pivot = source ∨ pivot = target then return none
      let first? ← snapshot.directFactorGuarded source pivot
      let second? ← snapshot.directFactorGuarded pivot target
      match first?, second? with
      | some first, some second => return some (first * second)
      | _, _ => return none

/-- An amount in another currency; none if there is no factor or the result is not
finite. -/
def exchangeGuarded (snapshot : Snapshot) (source target : Text)
    (amount : Float) : Except Break (Option Float) := do
  let source := Currency.normalize source
  let target := Currency.normalize target
  let direct? ← snapshot.directFactorGuarded source target
  let factor? ←
    match direct? with
    | some direct => pure (some direct)
    | none => snapshot.pivotFactorGuarded source target
  return factor?.bind fun factor =>
    if (amount * factor).isFinite then some (amount * factor) else none

/-- A rate that can be used is not zero. -/
theorem beq_zero_of_quote?_eq_some {snapshot : Snapshot}
    {source target : Text} {rate : Float}
    (quoted : snapshot.quote? source target = some rate) :
    (rate == 0) = false := by
  simp only [quote?, Option.bind_eq_bind, Option.bind_eq_some_iff] at quoted
  obtain ⟨row, _, found, _, quoted⟩ := quoted
  split at quoted
  case isTrue canBeUsed =>
    cases quoted
    unfold usable at canBeUsed
    rw [Bool.and_eq_true, decide_eq_true_eq] at canBeUsed
    exact Binary64.beq_zero_of_pos canBeUsed.2
  case isFalse =>
    cases quoted

theorem directFactorGuarded_eq (snapshot : Snapshot) (source target : Text) :
    snapshot.directFactorGuarded source target =
      .ok (snapshot.directFactor? source target) := by
  unfold directFactorGuarded directFactor?
  split
  · rfl
  · cases snapshot.quote? source target with
    | some rate =>
        rfl
    | none =>
        cases opposite : snapshot.quote? target source with
        | none =>
            rfl
        | some rate =>
            have nonzero := beq_zero_of_quote?_eq_some opposite
            simp [inverseGuarded, nonzero, Except.map]

theorem pivotFactorGuarded_eq (snapshot : Snapshot) (source target : Text) :
    snapshot.pivotFactorGuarded source target =
      .ok (snapshot.pivotFactor? source target) := by
  unfold pivotFactorGuarded pivotFactor?
  cases snapshot.pivot with
  | none =>
      rfl
  | some pivot =>
      simp only [directFactorGuarded_eq, Option.bind_eq_bind, Option.bind_some]
      split
      · rfl
      · cases snapshot.directFactor? source pivot with
        | none =>
            rfl
        | some first =>
            cases snapshot.directFactor? pivot target <;> rfl

/-- Whatever the rates are, a converted amount is finite. -/
theorem exchangeGuarded_eq (snapshot : Snapshot) (source target : Text)
    (amount : Float) :
    snapshot.exchangeGuarded source target amount =
      .ok ((snapshot.convert? source target amount).map (·.value)) := by
  have finite : ∀ factor? : Option Float,
      (factor?.bind fun factor =>
        if (amount * factor).isFinite then some (amount * factor)
        else none) =
      (factor?.bind fun factor =>
        Binary64.Finite.ofFloat? (amount * factor)).map (·.value) := by
    intro factor?
    cases factor? with
    | none =>
        rfl
    | some factor =>
        simp only [Option.bind_some, Binary64.Finite.ofFloat?]
        split <;> rfl
  unfold exchangeGuarded convert? factor?
  dsimp only
  rw [directFactorGuarded_eq, Break.ok_bind]
  cases snapshot.directFactor? (Currency.normalize source)
      (Currency.normalize target) with
  | some direct =>
      exact congrArg Except.ok (finite (some direct))
  | none =>
      dsimp only
      rw [pivotFactorGuarded_eq]
      exact congrArg Except.ok (finite _)

end Snapshot

end CurrencyPad
