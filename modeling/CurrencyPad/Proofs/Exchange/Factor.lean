import CurrencyPad.Proofs.Binary64.Arithmetic
import CurrencyPad.Proofs.Exchange.Availability

/-!
# The range of factors

Only the entries of the table are checked, and a factor may be an inverse or a
product.  It is therefore never negative and always a number or infinite; but it
is infinite where an inverse or a product is too large for a double, and zero
where the product of two steps over the pivot is too small.
-/

namespace CurrencyPad.Snapshot

open Binary64

/-- The quote of the other direction by whose inverse a step is made, as there is
none of its own direction. -/
structure IsInverted (snapshot : Snapshot) (source target : Text)
    (rate : Finite) : Prop where
  apart : source ≠ target
  missing : ∀ other, ¬ snapshot.Quotes source target other
  quoted : snapshot.Quotes target source rate.value

/-- The inverse by which a step between two codes is made, if it is made by one,
is a positive finite double. -/
def IsStepInRange (snapshot : Snapshot) (source target : Text) : Prop :=
  ∀ rate, snapshot.IsInverted source target rate → IsInRange rate.toRat⁻¹

/-- The inverses and products by which a factor is computed are positive finite
doubles. -/
structure IsFactorInRange (snapshot : Snapshot) (source target : Text) :
    Prop where
  step : snapshot.IsStepInRange source target
  overPivot : ∀ pivot, snapshot.pivot = some pivot →
    snapshot.directFactor? source target = none →
      snapshot.IsStepInRange source pivot ∧
        snapshot.IsStepInRange pivot target
  product : ∀ pivot, snapshot.pivot = some pivot →
    snapshot.directFactor? source target = none →
      ∀ first second : Finite,
        snapshot.directFactor? source pivot = some first.value →
          snapshot.directFactor? pivot target = some second.value →
            IsInRange (first.toRat * second.toRat)

theorem usable_ofMagnitudeBits_iff {bits : Nat} :
    usable (ofMagnitudeBits false bits) = true ↔
      0 < bits ∧ bits < infinityBits := by
  rw [usable_iff]
  constructor
  · rintro ⟨finite, positive⟩
    refine ⟨Nat.pos_of_ne_zero ?_, lt_infinityBits_of_isFinite finite⟩
    rintro rfl
    revert positive
    decide
  · rintro ⟨some, few⟩
    refine ⟨isFinite_ofMagnitudeBits few, ?_⟩
    obtain ⟨positive, shape⟩ := unpacked_of_ne_zero false some.ne'
    have above : (0 : Float).toModel.unpack.lt
        (ofMagnitudeBits false bits).toModel.unpack = true := by
      rw [unpack_ofMagnitudeBits false few, shape]
      rfl
    exact decide_eq_true (p := (0 : Float).toModel <
      (ofMagnitudeBits false bits).toModel) above

/-- Usable doubles are those of the patterns between zero and infinity. -/
theorem exists_of_usable {rate : Float} (isUsable : usable rate = true) :
    ∃ bits, 0 < bits ∧ bits < infinityBits ∧
      rate = ofMagnitudeBits false bits := by
  obtain ⟨finite, positive⟩ := usable_iff.mp isUsable
  obtain ⟨negative, bits, few, rfl⟩ := exists_eq_ofMagnitudeBits finite
  cases negative with
  | false =>
      exact ⟨bits, (usable_ofMagnitudeBits_iff.mp isUsable).1, few, rfl⟩
  | true =>
      exfalso
      have above : (0 : Float).toModel.unpack.lt
          (ofMagnitudeBits true bits).toModel.unpack = true :=
        of_decide_eq_true (p := (0 : Float).toModel <
          (ofMagnitudeBits true bits).toModel) positive
      rw [unpack_ofMagnitudeBits true few] at above
      unfold unpacked at above
      split at above <;> cases above

theorem usable_iff_isInRange {bits : Nat} {q : ℚ} (rounded : IsRounded bits q) :
    usable (ofMagnitudeBits false bits) = true ↔ IsInRange q := by
  rw [usable_ofMagnitudeBits_iff, rounded.isInRange_iff]

variable {snapshot : Snapshot} {source target : Text}

theorem toRat_of_eq {rate : Finite} {bits : Nat} (few : bits < infinityBits)
    (same : rate.value = ofMagnitudeBits false bits) : rate.toRat = grid bits :=
  Finite.toRat_eq few same

theorem toRat_pattern {bits : Nat} (few : bits < infinityBits) :
    Finite.toRat ⟨ofMagnitudeBits false bits, isFinite_ofMagnitudeBits few⟩ =
      grid bits :=
  toRat_of_eq few rfl

/-- The inverse of a usable quote is positive, and may be infinite. -/
theorem inverse_spec (rate : Finite) (isUsable : usable rate.value = true) :
    ∃ bits, 0 < bits ∧ 1 / rate.value = ofMagnitudeBits false bits ∧
      (bits < infinityBits ↔ IsInRange rate.toRat⁻¹) := by
  obtain ⟨divisor, some, few, same⟩ := exists_of_usable isUsable
  have one : (1 : Float) = ofMagnitudeBits false (1023 * 2 ^ 52) := by decide
  have gridOne : grid (1023 * 2 ^ 52) = 1 := by
    have parts : 1023 * 2 ^ 52 = 1022 * 2 ^ 52 + 2 ^ 52 := rfl
    have exponent : ((1022 : ℕ) : ℤ) + leastExponent = -((52 : ℕ) : ℤ) := rfl
    rw [parts, grid_eq (by decide) (by decide), unit, exponent, zpow_neg,
      zpow_natCast]
    norm_num
  obtain ⟨bits, rounded, quotient⟩ :=
    ofMagnitudeBits_div false false
      (show 1023 * 2 ^ 52 < infinityBits by decide) few some.ne'
  rw [gridOne, one_div, ← toRat_of_eq few same] at rounded
  have positive : 0 < grid divisor := by
    rw [← grid_zero]
    exact grid_strictMono some
  have small : grid divisor < 2 ^ 1024 := by
    rw [← grid_infinityBits]
    exact grid_strictMono few
  have large : ((2 : ℚ) ^ 1075)⁻¹ < rate.toRat⁻¹ := by
    rw [toRat_of_eq few same]
    refine inv_strictAnti₀ positive (small.trans ?_)
    exact pow_lt_pow_right₀ one_lt_two (by decide)
  have bitsPos := rounded.pos_iff.mpr large
  refine ⟨bits, bitsPos, ?_, ?_⟩
  · rw [one, same, quotient]
    rfl
  · rw [rounded.isInRange_iff]
    exact ⟨fun less => ⟨bitsPos, less⟩, And.right⟩

/-- A step is positive, and infinite only where an inverse is out of range. -/
theorem directFactor?_spec {step : Float}
    (found : snapshot.directFactor? source target = some step) :
    ∃ bits, 0 < bits ∧ step = ofMagnitudeBits false bits ∧
      (bits < infinityBits ↔ snapshot.IsStepInRange source target) := by
  have vacuous : ∀ step, usable step = true →
      (∀ rate, ¬ snapshot.IsInverted source target rate) →
        ∃ bits, 0 < bits ∧ step = ofMagnitudeBits false bits ∧
          (bits < infinityBits ↔ snapshot.IsStepInRange source target) := by
    intro step isUsable none
    obtain ⟨bits, some, few, same⟩ := exists_of_usable isUsable
    exact ⟨bits, some, same,
      iff_of_true few fun rate inverted => absurd inverted (none rate)⟩
  unfold directFactor? at found
  split at found
  case isTrue same =>
    cases found
    exact vacuous 1 (by decide) fun rate inverted => inverted.apart same
  case isFalse apart =>
    split at found
    case h_1 rate quoted =>
      cases found
      have isQuote := quote?_eq_some_iff.mp quoted
      exact vacuous step (usable_iff.mpr ⟨isQuote.finite, isQuote.positive⟩)
        fun _ inverted => inverted.missing step isQuote
    case h_2 missing =>
      obtain ⟨rate, quoted, rfl⟩ := Option.map_eq_some_iff.mp found
      have isQuote := quote?_eq_some_iff.mp quoted
      obtain ⟨bits, some, same, inRange⟩ :=
        inverse_spec ⟨rate, isQuote.finite⟩
          (usable_iff.mpr ⟨isQuote.finite, isQuote.positive⟩)
      refine ⟨bits, some, same, inRange.trans ⟨?_, fun all => all _ ?_⟩⟩
      · intro range other inverted
        have sameRate : other = ⟨rate, isQuote.finite⟩ := by
          have unique := quote?_eq_some_iff.mpr inverted.quoted
          rw [quoted] at unique
          cases other
          cases unique
          rfl
        rw [sameRate]
        exact range
      · refine ⟨apart, fun other isOther => ?_, isQuote⟩
        rw [quote?_eq_some_iff.mpr isOther] at missing
        cases missing

/-- Where there is no step, no inverse is used. -/
theorem isStepInRange_of_none
    (none : snapshot.directFactor? source target = none) :
    snapshot.IsStepInRange source target := by
  intro rate inverted
  have found := isSome_directFactor?_iff.mpr
    (.inr ⟨rate.value, .inr inverted.quoted⟩)
  rw [none] at found
  cases found

open Float.Model Float.Model.UnpackedFloat in
theorem unpack_of_beyond {bits : Nat} (beyond : infinityBits ≤ bits) :
    (ofMagnitudeBits false bits).toModel.unpack = .infinity .positive := by
  rw [ofMagnitudeBits_of_infinityBits_le beyond]
  rfl

open Float.Model Float.Model.UnpackedFloat in
theorem isFinite_pack_infinity (sign : Sign) :
    (Float.ofModel (Float.Model.pack (.infinity sign))).isFinite = false := by
  cases sign <;> decide

open Float.Model Float.Model.UnpackedFloat in
/-- A product with infinity is infinite or undefined. -/
theorem isFinite_mul_infinity (x : Float) :
    (x * infinity false).isFinite = false := by
  have product : x * infinity false =
      Float.ofModel (Float.Model.pack (UnpackedFloat.mul .binary64
        x.toModel.unpack (.infinity .positive))) := rfl
  rw [product]
  cases x.toModel.unpack with
  | notANumber =>
      decide
  | infinity sign =>
      cases sign <;> decide
  | zero sign =>
      cases sign <;> decide
  | finite sign count exponent positive =>
      have infinite : UnpackedFloat.mul .binary64
          (.finite sign count exponent positive) (.infinity .positive) =
            .infinity (sign * .positive) := rfl
      rw [infinite, isFinite_pack_infinity]

open Float.Model Float.Model.UnpackedFloat in
/-- A positive double times infinity is infinite. -/
theorem mul_of_beyond {bits other : Nat} (some : 0 < bits)
    (otherSome : 0 < other)
    (beyond : infinityBits ≤ bits ∨ infinityBits ≤ other) :
    ofMagnitudeBits false bits * ofMagnitudeBits false other =
      infinity false := by
  have product : ofMagnitudeBits false bits * ofMagnitudeBits false other =
      Float.ofModel (Float.Model.pack (UnpackedFloat.mul .binary64
        (ofMagnitudeBits false bits).toModel.unpack
        (ofMagnitudeBits false other).toModel.unpack)) := rfl
  have infinite : Float.ofModel (Float.Model.pack (.infinity .positive)) =
      infinity false := by decide
  rw [product, ← infinite]
  by_cases few : bits < infinityBits
  · obtain ⟨positive, shape⟩ := unpacked_of_ne_zero false some.ne'
    rw [unpack_ofMagnitudeBits false few, shape,
      unpack_of_beyond (beyond.resolve_left (not_le.mpr few))]
    rfl
  · rw [unpack_of_beyond (not_lt.mp few)]
    by_cases otherFew : other < infinityBits
    · obtain ⟨positive, shape⟩ := unpacked_of_ne_zero false otherSome.ne'
      rw [unpack_ofMagnitudeBits false otherFew, shape]
      rfl
    · rw [unpack_of_beyond (not_lt.mp otherFew)]
      rfl

/-- A product of two steps is usable where both steps are and their product is in
range. -/
theorem usable_mul_iff {bits other : Nat} (some : 0 < bits)
    (otherSome : 0 < other) :
    ∃ product,
      ofMagnitudeBits false bits * ofMagnitudeBits false other =
          ofMagnitudeBits false product ∧
        (usable (ofMagnitudeBits false product) = true ↔
          bits < infinityBits ∧ other < infinityBits ∧
            IsInRange (grid bits * grid other)) := by
  by_cases beyond : infinityBits ≤ bits ∨ infinityBits ≤ other
  · refine ⟨infinityBits, mul_of_beyond some otherSome beyond, ?_⟩
    refine iff_of_false (by decide) fun ⟨few, otherFew, _⟩ => ?_
    omega
  · rw [not_or, not_le, not_le] at beyond
    obtain ⟨product, rounded, same⟩ :=
      ofMagnitudeBits_mul false false beyond.1 beyond.2
    refine ⟨product, same, (usable_iff_isInRange rounded).trans ?_⟩
    exact ⟨fun range => ⟨beyond.1, beyond.2, range⟩, fun all => all.2.2⟩

/-- A factor is a positive or zero double, or infinity, and tells by its pattern
whether it is in range. -/
theorem factor?_pattern {factor : Float}
    (found : snapshot.factor? source target = some factor) :
    ∃ bits, factor = ofMagnitudeBits false bits ∧
      (usable factor = true ↔
        snapshot.IsFactorInRange (Currency.normalize source)
          (Currency.normalize target)) := by
  unfold factor? at found
  dsimp only at found
  generalize Currency.normalize source = source at found ⊢
  generalize Currency.normalize target = target at found ⊢
  split at found
  case h_1 step isStep =>
    cases found
    obtain ⟨bits, some, same, inRange⟩ := directFactor?_spec isStep
    refine ⟨bits, same, ?_⟩
    rw [same, usable_ofMagnitudeBits_iff]
    constructor
    · rintro ⟨_, few⟩
      refine ⟨inRange.mp few, fun pivot isPivot none => ?_,
        fun pivot isPivot none => ?_⟩
      · rw [isStep] at none
        cases none
      · rw [isStep] at none
        cases none
    · exact fun all => ⟨some, inRange.mpr all.step⟩
  case h_2 none =>
    unfold pivotFactor? at found
    obtain ⟨pivot, isPivot, found⟩ := Option.bind_eq_some_iff.mp found
    split at found
    case isTrue =>
      cases found
    case isFalse =>
      obtain ⟨first, isFirst, found⟩ := Option.bind_eq_some_iff.mp found
      obtain ⟨second, isSecond, found⟩ := Option.bind_eq_some_iff.mp found
      cases found
      obtain ⟨bits, some, rfl, inRange⟩ := directFactor?_spec isFirst
      obtain ⟨other, otherSome, rfl, otherInRange⟩ :=
        directFactor?_spec isSecond
      obtain ⟨product, same, isUsable⟩ := usable_mul_iff some otherSome
      refine ⟨product, same, ?_⟩
      rw [same, isUsable]
      constructor
      · rintro ⟨few, otherFew, range⟩
        refine ⟨?_, fun only isOnly _ => ?_, fun only isOnly _ => ?_⟩
        · exact isStepInRange_of_none none
        · rw [isPivot] at isOnly
          cases isOnly
          exact ⟨inRange.mp few, otherInRange.mp otherFew⟩
        · rw [isPivot] at isOnly
          cases isOnly
          intro left right isLeft isRight
          rw [isFirst, Option.some.injEq] at isLeft
          rw [isSecond, Option.some.injEq] at isRight
          rw [toRat_of_eq few isLeft.symm, toRat_of_eq otherFew isRight.symm]
          exact range
      · intro all
        obtain ⟨firstStep, secondStep⟩ := all.overPivot pivot isPivot none
        have few := inRange.mpr firstStep
        have otherFew := otherInRange.mpr secondStep
        refine ⟨few, otherFew, ?_⟩
        rw [← toRat_pattern few, ← toRat_pattern otherFew]
        exact all.product pivot isPivot none _ _ isFirst isSecond

/-- An infinite factor converts no amount, and a zero factor every finite one to
zero. -/
theorem convert?_of_unusable {factor : Float}
    (found : snapshot.factor? source target = some factor) :
    (factor = infinity false →
        ∀ amount, snapshot.convert? source target amount = none) ∧
      (factor = 0 → ∀ amount : Finite, ∃ converted,
        snapshot.convert? source target amount.value = some converted ∧
          (converted.value == 0) = true) := by
  unfold convert?
  rw [found]
  refine ⟨?_, ?_⟩
  · rintro rfl amount
    have infinite : ¬ (amount * infinity false).isFinite = true := by
      rw [isFinite_mul_infinity]
      exact Bool.false_ne_true
    exact dif_neg infinite
  · rintro rfl amount
    obtain ⟨negative, bits, few, same⟩ :=
      exists_eq_ofMagnitudeBits amount.isFinite
    obtain ⟨product, rounded, value⟩ :=
      ofMagnitudeBits_mul negative false few
        (show 0 < infinityBits by decide)
    have zero : (0 : Float) = ofMagnitudeBits false 0 := by decide
    rw [grid_zero, mul_zero] at rounded
    rw [rounded.unique .zero, ← zero, ← same] at value
    have finite : (amount.value * 0).isFinite = true := by
      rw [value]
      exact isFinite_ofMagnitudeBits (by decide)
    have isZero : (amount.value * 0 == 0) = true := by
      rw [value]
      cases negative <;> decide
    exact ⟨⟨amount.value * 0, finite⟩, dif_pos finite, isZero⟩

/-- A factor is zero, a positive number or infinite.  It is usable exactly where
the inverses and products by which it is computed are in range. -/
theorem factor?_range {factor : Float}
    (found : snapshot.factor? source target = some factor) :
    (usable factor = true ∨ factor = 0 ∨ factor = infinity false) ∧
      (usable factor = true ↔
        snapshot.IsFactorInRange (Currency.normalize source)
          (Currency.normalize target)) ∧
      (factor = infinity false →
        ∀ amount, snapshot.convert? source target amount = none) ∧
      (factor = 0 → ∀ amount : Finite, ∃ converted,
        snapshot.convert? source target amount.value = some converted ∧
          (converted.value == 0) = true) := by
  obtain ⟨bits, same, isUsable⟩ := factor?_pattern found
  refine ⟨?_, isUsable, convert?_of_unusable found⟩
  by_cases zero : bits = 0
  · subst zero
    exact .inr (.inl (same.trans (by decide)))
  · by_cases few : bits < infinityBits
    · left
      rw [same, usable_ofMagnitudeBits_iff]
      exact ⟨Nat.pos_of_ne_zero zero, few⟩
    · exact .inr (.inr (same.trans
        (ofMagnitudeBits_of_infinityBits_le (not_lt.mp few))))

/-- A usable quote whose inverse is not in range. -/
def tinyQuote : Snapshot :=
  ofRows none [("USD".toList, [("EUR".toList, 1e-310)])]

/-- Two usable quotes over a pivot whose product is not in range. -/
def tinySteps : Snapshot :=
  ofRows (some "USD".toList)
    [("EUR".toList, [("USD".toList, 1e-200)]),
      ("USD".toList, [("GBP".toList, 1e-200)])]

theorem factor?_range_tiny :
    tinyQuote.factor? "EUR".toList "USD".toList = some (infinity false) ∧
      (∀ amount,
        tinyQuote.convert? "EUR".toList "USD".toList amount = none) ∧
      tinySteps.factor? "EUR".toList "GBP".toList = some 0 ∧
      ¬ tinySteps.IsFactorInRange (Currency.normalize "EUR".toList)
        (Currency.normalize "GBP".toList) := by
  have infinite : tinyQuote.factor? "EUR".toList "USD".toList =
      some (infinity false) := by
    decide +kernel
  have zero : tinySteps.factor? "EUR".toList "GBP".toList = some 0 := by
    decide +kernel
  obtain ⟨_, _, noAmount, _⟩ := factor?_range infinite
  obtain ⟨_, isUsable, _⟩ := factor?_range zero
  exact ⟨infinite, noAmount rfl, zero,
    fun range => absurd (isUsable.mpr range) (by decide)⟩

/-- Not every factor is a positive finite number. -/
theorem not_usable_factor? :
    ¬ ∀ (snapshot : Snapshot) (source target : Text) (factor : Float),
      snapshot.factor? source target = some factor →
        usable factor = true := by
  intro all
  exact absurd (all tinyQuote "EUR".toList "USD".toList (infinity false)
    (by decide +kernel)) (by decide)

end CurrencyPad.Snapshot
