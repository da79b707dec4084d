import CurrencyPad.Proofs.Binary64.Division
import CurrencyPad.Proofs.Binary64.Nearest

/-!
# Products and quotients of doubles

A mantissa with its round bit and sticky bit tells in which half of a unit a
number lies and whether it is the start of that half.  A shift tells the same of
the shifted number.  Hence a product or quotient of finite doubles is the double
of the pattern to which the exact result is rounded.
-/

namespace CurrencyPad.Binary64

open Float.Model Float.Model.UnpackedFloat

/-- The start of the half unit that a mantissa and its round bit stand for. -/
def halfStart (mantissa : ExtendedMantissa) : ℚ :=
  mantissa.mantissa + if mantissa.roundBit then 1 / 2 else 0

/-- The number lies in the half unit of the mantissa, at its start exactly where
the sticky bit is off. -/
structure Shows (mantissa : ExtendedMantissa) (q : ℚ) : Prop where
  least : halfStart mantissa ≤ q
  most : q < halfStart mantissa + 1 / 2
  exact : mantissa.stickyBit = false ↔ q = halfStart mantissa

namespace Shows

variable {mantissa : ExtendedMantissa} {q : ℚ}

theorem bounds (shows : Shows mantissa q) :
    (mantissa.mantissa : ℚ) ≤ q ∧ q < mantissa.mantissa + 1 := by
  obtain ⟨least, most, _⟩ := shows
  unfold halfStart at least most
  split at least <;> constructor <;> simp_all <;> linarith

/-- The bit that is shifted out becomes the round bit. -/
theorem shiftRightOne (shows : Shows mantissa q) :
    Shows mantissa.shiftRightOne (q / 2) := by
  obtain ⟨least, most, exact⟩ := shows
  have start : halfStart mantissa.shiftRightOne = mantissa.mantissa / 2 := by
    have parts : (mantissa.mantissa : ℚ) =
        2 * (mantissa.mantissa / 2 : ℕ) + (mantissa.mantissa % 2 : ℕ) := by
      exact_mod_cast (Nat.div_add_mod mantissa.mantissa 2).symm
    rw [parts, halfStart, ExtendedMantissa.shiftRightOne]
    rcases Nat.mod_two_eq_zero_or_one mantissa.mantissa with even | odd
    · simp [even]
    · simp [odd]
      ring
  rw [halfStart] at least most exact
  refine ⟨?_, ?_, ?_⟩
  · rw [start]
    split at least <;> linarith
  · rw [start]
    split at most <;> linarith
  · rw [start, ExtendedMantissa.shiftRightOne, Bool.or_eq_false_iff, exact]
    cases roundBit : mantissa.roundBit with
    | false =>
        simp
    | true =>
        simp only [roundBit, if_true] at least
        refine iff_of_false (fun both => nomatch both.1) fun same => ?_
        linarith

theorem shiftRight (shows : Shows mantissa q) (count : Nat) :
    Shows (mantissa >>> count) (q / 2 ^ count) := by
  show Shows (Nat.repeat ExtendedMantissa.shiftRightOne count mantissa) _
  induction count with
  | zero =>
      rw [pow_zero, div_one]
      exact shows
  | succ count inductionHypothesis =>
      rw [pow_succ, ← div_div]
      exact inductionHypothesis.shiftRightOne

/-- The rounded mantissa is the nearest whole number, and even on a tie. -/
theorem roundedMantissa (shows : Shows mantissa q) :
    (mantissa.roundedMantissa : ℚ) - 1 / 2 ≤ q ∧
      q ≤ (mantissa.roundedMantissa : ℚ) + 1 / 2 ∧
      ((mantissa.roundedMantissa : ℚ) - 1 / 2 = q ∨
        q = (mantissa.roundedMantissa : ℚ) + 1 / 2 →
          Even mantissa.roundedMantissa) := by
  obtain ⟨least, most, exact⟩ := shows
  obtain ⟨whole, roundBit, stickyBit⟩ := mantissa
  have strict : stickyBit = true →
      halfStart ⟨whole, roundBit, stickyBit⟩ < q := by
    rintro rfl
    exact lt_of_le_of_ne least fun same => nomatch exact.mpr same.symm
  -- A number that is nearer to one whole number than to any other is no tie.
  have nearer {count : ℕ} (above : (count : ℚ) - 1 / 2 < q)
      (below : q < (count : ℚ) + 1 / 2) :
      (count : ℚ) - 1 / 2 ≤ q ∧ q ≤ (count : ℚ) + 1 / 2 ∧
        ((count : ℚ) - 1 / 2 = q ∨ q = (count : ℚ) + 1 / 2 → Even count) :=
    ⟨above.le, below.le, fun tie =>
      tie.elim (absurd · above.ne) (absurd · below.ne)⟩
  unfold halfStart at least most exact strict
  unfold ExtendedMantissa.roundedMantissa ExtendedMantissa.accuracy
  cases roundBit <;> cases stickyBit
  case false.false =>
    simp only [Accuracy.roundToNearestEven] at *
    simp at exact
    exact nearer (by linarith) (by linarith)
  case false.true =>
    simp only [Accuracy.roundToNearestEven] at *
    simp at strict most
    exact nearer (by linarith) (by linarith)
  case true.false =>
    simp only [Accuracy.roundToNearestEven] at *
    simp at exact
    have even : Even (whole + whole % 2) := by
      rw [Nat.even_iff]
      omega
    rcases Nat.mod_two_eq_zero_or_one whole with isEven | isOdd
    · rw [isEven] at even ⊢
      exact ⟨by push_cast; linarith, by push_cast; linarith, fun _ => even⟩
    · rw [isOdd] at even ⊢
      exact ⟨by push_cast; linarith, by push_cast; linarith, fun _ => even⟩
  case true.true =>
    simp only [Accuracy.roundToNearestEven] at *
    simp at strict most
    refine nearer ?_ ?_ <;> push_cast <;> linarith

theorem of_exact (count : Nat) :
    Shows (.ofMantissaAndAccuracy count .exact) count := by
  have start : halfStart (.ofMantissaAndAccuracy count .exact) = count := by
    simp [halfStart, ExtendedMantissa.ofMantissaAndAccuracy]
  refine ⟨start.le, ?_, iff_of_true rfl start.symm⟩
  rw [start]
  linarith

/-- What is left beside a whole number is told by its side of a half. -/
theorem of_inexact (whole : Nat) {fraction : ℚ} (positive : 0 < fraction)
    (less : fraction < 1) :
    Shows (.ofMantissaAndAccuracy whole
      (.inexact (compare fraction (1 / 2)))) (whole + fraction) := by
  rcases lt_trichotomy fraction (1 / 2) with below | middle | above
  · rw [compare_lt_iff_lt.mpr below]
    constructor <;>
      simp [ExtendedMantissa.ofMantissaAndAccuracy, halfStart] <;> linarith
  · rw [compare_eq_iff_eq.mpr middle, middle]
    constructor <;>
      simp [ExtendedMantissa.ofMantissaAndAccuracy, halfStart]
  · rw [compare_gt_iff_gt.mpr above]
    constructor <;>
      simp [ExtendedMantissa.ofMantissaAndAccuracy, halfStart] <;> linarith

/-- A whole quotient with the accuracy of its remainder shows the quotient. -/
theorem of_quotient (dividend : Nat) {divisor : Nat} (positive : 0 < divisor) :
    Shows (.ofMantissaAndAccuracy (dividend / divisor)
      (accuracyOfFraction (dividend % divisor) divisor))
      ((dividend : ℚ) / divisor) := by
  have divisorPos : (0 : ℚ) < divisor := by exact_mod_cast positive
  have quotient : (dividend : ℚ) / divisor =
      (dividend / divisor : ℕ) + (dividend % divisor : ℕ) / divisor := by
    rw [eq_comm, eq_div_iff divisorPos.ne', add_mul,
      div_mul_cancel₀ _ divisorPos.ne', mul_comm]
    exact_mod_cast Nat.div_add_mod dividend divisor
  have less : ((dividend % divisor : ℕ) : ℚ) < divisor := by
    exact_mod_cast Nat.mod_lt dividend positive
  rw [quotient]
  generalize dividend / divisor = whole
  generalize dividend % divisor = rest at less
  unfold accuracyOfFraction
  by_cases none : rest = 0
  · rw [if_pos none, none]
    simpa using of_exact whole
  · have some : (0 : ℚ) < rest := by
      exact_mod_cast Nat.pos_of_ne_zero none
    have scaled : StrictMono fun count : ℕ => (count : ℚ) / (2 * divisor) :=
      fun _ _ fewer => div_lt_div_of_pos_right (Nat.cast_lt.mpr fewer)
        (by positivity)
    have sameSide : compare (2 * rest) divisor =
        compare ((rest : ℚ) / divisor) (1 / 2) := by
      rw [← cmp_eq_compare, ← cmp_eq_compare, ← scaled.cmp_map_eq]
      congr 1
      · push_cast
        field_simp
      · field_simp
    rw [if_neg none, sameSide]
    exact of_inexact whole (div_pos some divisorPos)
      ((div_lt_one divisorPos).mpr less)

end Shows

/-! ## Rounding -/

/-- A mantissa that was carried over is shifted once more, and is then the count
of units of its pattern. -/
theorem shiftToTargetExponent_exact {index count : Nat} (few : count ≤ 2 ^ 53)
    (many : index = 0 ∨ 2 ^ 52 ≤ count) :
    let shifted := shiftToTargetExponent .binary64 count
      (index + leastExponent) .exact
    shifted.1.mantissa = unitCount (index * 2 ^ 52 + count) ∧
      shifted.2 = unitIndex (index * 2 ^ 52 + count) + leastExponent := by
  have leastEq : leastExponent = -1074 := rfl
  have target : Format.targetExponent .binary64
      (totalExponent count (index + leastExponent)) =
        max (count.log2 + 1 + (index + leastExponent) - 53) (-1074) := rfl
  unfold shiftToTargetExponent shiftToExponent
  dsimp only
  rw [target, mantissa_shiftRight, mantissa_ofMantissaAndAccuracy]
  rcases Nat.lt_or_eq_of_le few with fewer | last
  · have log : count.log2 ≤ 52 := by
      by_cases none : count = 0
      · rw [none]
        decide
      · exact Nat.le_of_lt_succ ((Nat.log2_lt none).mpr fewer)
    have noShift : (max ((count.log2 : ℤ) + 1 + (index + leastExponent) - 53)
        (-1074) - (index + leastExponent)).toNat = 0 := by
      omega
    have sameIndex := unitIndex_eq fewer many
    rw [noShift, unitCount, sameIndex]
    omega
  · have log : count.log2 = 53 := by
      rw [last]
      decide +kernel
    have oneShift : (max ((count.log2 : ℤ) + 1 + (index + leastExponent) - 53)
        (-1074) - (index + leastExponent)).toNat = 1 := by
      omega
    have nextIndex : unitIndex (index * 2 ^ 52 + count) = index + 1 := by
      unfold unitIndex
      omega
    rw [oneShift, unitCount, nextIndex]
    omega

/-- The shift to a greater exponent shows the same number in its unit. -/
theorem Shows.shiftToTargetExponent {count : Nat} {accuracy : Accuracy} {q : ℚ}
    (shows : Shows (.ofMantissaAndAccuracy count accuracy) q) (exponent : ℤ) :
    let shifted := shiftToTargetExponent .binary64 count exponent accuracy
    Shows shifted.1 (q * 2 ^ exponent / 2 ^ shifted.2) := by
  unfold UnpackedFloat.shiftToTargetExponent shiftToExponent
  dsimp only
  generalize (Format.targetExponent .binary64 (totalExponent count exponent) -
    exponent).toNat = shift
  have sameSize : q * 2 ^ exponent / 2 ^ (exponent + (shift : ℤ)) =
      q / 2 ^ shift := by
    rw [zpow_add₀ two_ne_zero, zpow_natCast]
    field_simp
  rw [sameSize]
  exact shows.shiftRight shift

/-- Where the exponent to which a number is shifted is not the least one, the
number has all bits of its binade. -/
theorem binade_of_shows {count : Nat} {exponent : ℤ} {accuracy : Accuracy}
    {q : ℚ} (shows : Shows (.ofMantissaAndAccuracy count accuracy) q)
    (long : 52 ≤ count.log2 ∨ exponent ≤ leastExponent) {index : Nat}
    (isIndex : index + leastExponent =
      max exponent (max (count.log2 + 1 + exponent - 53) (-1074))) :
    (index = 0 ∨ 2 ^ 52 * unit index ≤ q * 2 ^ exponent) ∧
      q * 2 ^ exponent < 2 ^ 53 * unit index := by
  have leastEq : leastExponent = -1074 := rfl
  obtain ⟨atLeast, atMost⟩ := shows.bounds
  rw [mantissa_ofMantissaAndAccuracy] at atLeast atMost
  have power : (0 : ℚ) < 2 ^ exponent := by positivity
  constructor
  · by_cases lowest : index = 0
    · exact .inl lowest
    · right
      have some : count ≠ 0 := by
        rintro rfl
        have none : Nat.log2 0 = 0 := rfl
        omega
      have first : (2 : ℚ) ^ count.log2 ≤ q :=
        le_trans (by exact_mod_cast Nat.log2_self_le some) atLeast
      have start : (2 : ℚ) ^ 52 * unit index =
          2 ^ count.log2 * 2 ^ exponent := by
        rw [unit, ← zpow_natCast, ← zpow_natCast, ← zpow_add₀ two_ne_zero,
          ← zpow_add₀ two_ne_zero]
        congr 1
        push_cast
        omega
      rw [start]
      exact mul_le_mul_of_nonneg_right first power.le
  · have last : q < 2 ^ (count.log2 + 1) := by
      have next : count + 1 ≤ 2 ^ (count.log2 + 1) := Nat.lt_log2_self
      have cast : (count : ℚ) + 1 ≤ 2 ^ (count.log2 + 1) := by
        exact_mod_cast next
      exact lt_of_lt_of_le atMost cast
    refine lt_of_lt_of_le (mul_lt_mul_of_pos_right last power) ?_
    rw [unit, ← zpow_natCast, ← zpow_natCast, ← zpow_add₀ two_ne_zero,
      ← zpow_add₀ two_ne_zero]
    refine zpow_le_zpow_right₀ one_le_two ?_
    push_cast
    omega

/-- A number that is shown with enough bits is rounded to the pattern that
results. -/
theorem roundWithAccuracy_eq (negative : Bool) {count : Nat} {exponent : ℤ}
    {accuracy : Accuracy} {q : ℚ}
    (shows : Shows (.ofMantissaAndAccuracy count accuracy) q)
    (long : 52 ≤ count.log2 ∨ exponent ≤ leastExponent) :
    ∃ bits, IsRounded bits (q * 2 ^ exponent) ∧
      roundWithAccuracy .binary64 (signOf negative) count exponent accuracy =
        unpacked negative bits := by
  have leastEq : leastExponent = -1074 := rfl
  obtain ⟨firstExponent, -⟩ :=
    shiftToTargetExponent_spec count exponent accuracy
  have shown := shows.shiftToTargetExponent exponent
  unfold roundWithAccuracy
  generalize shiftToTargetExponent .binary64 count exponent accuracy = first
    at firstExponent shown
  obtain ⟨mantissa, middle⟩ := first
  dsimp only at firstExponent shown ⊢
  obtain ⟨index, rfl⟩ : ∃ index : Nat, middle = index + leastExponent :=
    ⟨(middle + 1074).toNat, by omega⟩
  have unitEq : unit index = 2 ^ ((index : ℤ) + leastExponent) := rfl
  have positive := unit_pos index
  rw [← unitEq] at shown
  obtain ⟨above, below, tie⟩ := shown.roundedMantissa
  rw [le_div_iff₀ positive] at above
  rw [div_le_iff₀ positive] at below
  rw [eq_div_iff positive.ne', div_eq_iff positive.ne'] at tie
  obtain ⟨start, binadeEnd⟩ := binade_of_shows shows long firstExponent
  obtain ⟨few, many⟩ := count_of_binade above below start binadeEnd
  obtain ⟨lastCount, lastExponent⟩ := shiftToTargetExponent_exact few many
  refine ⟨_, isRounded_of_count above below tie start binadeEnd, ?_⟩
  generalize shiftToTargetExponent .binary64 mantissa.roundedMantissa
    (index + leastExponent) .exact = last at lastCount lastExponent
  obtain ⟨⟨_, _, _⟩, _⟩ := last
  dsimp only at lastCount lastExponent
  subst lastCount lastExponent
  rfl

/-- The pattern of a rounded number is packed to its double, or to infinity. -/
theorem ofModel_pack_unpacked (negative : Bool) (bits : Nat) :
    Float.ofModel (Float.Model.pack (unpacked negative bits)) =
      ofMagnitudeBits negative bits := by
  by_cases few : bits < infinityBits
  · rw [ofMagnitudeBits_eq negative few.le, ← unpack_word few]
    rfl
  · rw [ofMagnitudeBits_of_infinityBits_le (not_lt.mp few)]
    have some : unitCount bits ≠ 0 := by
      unfold unitCount unitIndex
      unfold infinityBits at few
      omega
    have large : 2 ^ Format.binary64.exponentBits ≤
        (unitIndex bits + leastExponent + Format.binary64.exponentBias +
          Format.binary64.mantissaBitsWithoutImplicit).toNat + 1 := by
      show 2 ^ 11 ≤ ((unitIndex bits : ℤ) + -1074 + 1023 + 52).toNat + 1
      unfold unitIndex
      unfold infinityBits at few
      omega
    have packed : UnpackedFloat.pack .binary64 (unpacked negative bits) =
        UnpackedFloat.pack .binary64 (.infinity (signOf negative)) := by
      rw [unpacked, dif_neg some, UnpackedFloat.pack]
      exact if_pos large
    have same : Float.Model.pack (unpacked negative bits) =
        Float.Model.pack (.infinity (signOf negative)) := by
      unfold Float.Model.pack
      rw [Float.Model.mk.injEq, packed]
    rw [same]
    cases negative <;> decide

/-! ## Products and quotients -/

section Operations

variable {negative otherNegative : Bool} {bits other : Nat}

private theorem signOf_mul :
    signOf negative * signOf otherNegative =
      signOf (negative ^^ otherNegative) := by
  cases negative <;> cases otherNegative <;> rfl

private theorem signOf_div :
    signOf negative / signOf otherNegative =
      signOf (negative ^^ otherNegative) := by
  cases negative <;> cases otherNegative <;> rfl

theorem unpacked_of_ne_zero (negative : Bool) (some : bits ≠ 0) :
    ∃ positive, unpacked negative bits =
      .finite (signOf negative) (unitCount bits)
        (unitIndex bits + leastExponent) positive := by
  have count : unitCount bits ≠ 0 := by
    unfold unitCount unitIndex
    omega
  exact ⟨Nat.pos_of_ne_zero count, dif_neg count⟩

private theorem unpacked_mul_of_zero (zero : bits = 0 ∨ other = 0) :
    UnpackedFloat.mul .binary64 (unpacked negative bits)
      (unpacked otherNegative other) =
        unpacked (negative ^^ otherNegative) 0 := by
  have none : unpacked (negative ^^ otherNegative) 0 =
      .zero (signOf negative * signOf otherNegative) := by
    rw [signOf_mul]
    rfl
  rw [none]
  rcases zero with rfl | rfl
  · unfold unpacked
    split <;> split <;> first | rfl | contradiction
  · unfold unpacked
    split <;> split <;> first | rfl | contradiction

/-- Two counts that are not zero have enough bits together, unless both numbers
have the least exponent. -/
theorem unpacked_mul (negative otherNegative : Bool) (bits other : Nat) :
    ∃ product, IsRounded product (grid bits * grid other) ∧
      UnpackedFloat.mul .binary64 (unpacked negative bits)
        (unpacked otherNegative other) =
          unpacked (negative ^^ otherNegative) product := by
  by_cases zero : bits = 0 ∨ other = 0
  · have none : grid bits * grid other = 0 := by
      rcases zero with rfl | rfl <;> simp
    rw [none]
    exact ⟨0, .zero, unpacked_mul_of_zero zero⟩
  · rw [not_or] at zero
    obtain ⟨positive, some⟩ := unpacked_of_ne_zero negative zero.1
    obtain ⟨otherPositive, otherSome⟩ :=
      unpacked_of_ne_zero otherNegative zero.2
    have long : 52 ≤ (unitCount bits * unitCount other).log2 ∨
        (unitIndex bits + leastExponent) +
          (unitIndex other + leastExponent) ≤ leastExponent := by
      have leastEq : leastExponent = -1074 := rfl
      obtain ⟨-, -, many⟩ := bits_eq_index_add_count bits
      obtain ⟨-, -, otherMany⟩ := bits_eq_index_add_count other
      rw [Nat.le_log2 (Nat.mul_pos positive otherPositive).ne']
      rcases many with least | full
      · rcases otherMany with otherLeast | otherFull
        · right
          omega
        · left
          exact otherFull.trans (Nat.le_mul_of_pos_left _ positive)
      · left
        exact full.trans (Nat.le_mul_of_pos_right _ otherPositive)
    obtain ⟨product, rounded, same⟩ := roundWithAccuracy_eq
      (negative ^^ otherNegative)
      (.of_exact (unitCount bits * unitCount other)) long
    refine ⟨product, ?_, ?_⟩
    · convert rounded using 1
      rw [grid, grid, unit, unit, Nat.cast_mul,
        zpow_add₀ two_ne_zero (unitIndex bits + leastExponent)]
      ring
    · rw [some, otherSome, ← same, ← signOf_mul]
      rfl

/-- A whole quotient shows the exact one in the unit of its exponent. -/
private theorem divCore_shows (count : Nat) {otherCount : Nat}
    (exponent otherExponent : ℤ) (otherPositive : 0 < otherCount) :
    let result := divCore .binary64 count exponent otherCount otherExponent
    ∃ q, Shows (.ofMantissaAndAccuracy result.1 result.2.2) q ∧
      q * 2 ^ result.2.1 =
        (count : ℚ) * 2 ^ exponent / (otherCount * 2 ^ otherExponent) := by
  refine ⟨_, .of_quotient _ otherPositive, ?_⟩
  dsimp only [divCore]
  generalize targetEq : min (exponent - otherExponent)
    (Format.targetExponent .binary64
      (totalExponent count exponent -
        totalExponent otherCount otherExponent)) = target
  have shift : exponent =
      ((exponent - otherExponent - target).toNat : ℤ) + target +
        otherExponent := by
    omega
  generalize (exponent - otherExponent - target).toNat = shiftAmount at shift
  have divisor : (otherCount : ℚ) ≠ 0 := by
    exact_mod_cast otherPositive.ne'
  rw [shift, Nat.shiftLeft_eq, zpow_add₀ two_ne_zero, zpow_add₀ two_ne_zero,
    zpow_natCast]
  push_cast
  field_simp

/-- A quotient of counts has enough bits, or the least exponent. -/
private theorem divCore_long {count otherCount : Nat}
    {exponent otherExponent : ℤ} (positive : 0 < count)
    (otherPositive : 0 < otherCount) :
    let result := divCore .binary64 count exponent otherCount otherExponent
    52 ≤ result.1.log2 ∨ result.2.1 ≤ leastExponent := by
  have leastEq : leastExponent = -1074 := rfl
  have target : Format.targetExponent .binary64
      (totalExponent count exponent -
        totalExponent otherCount otherExponent) =
      max ((count.log2 + 1 + exponent) -
        (otherCount.log2 + 1 + otherExponent) - 53) (-1074) := rfl
  dsimp only [divCore]
  rw [target]
  by_cases least : min (exponent - otherExponent)
      (max ((count.log2 + 1 + exponent) -
        (otherCount.log2 + 1 + otherExponent) - 53) (-1074)) ≤ leastExponent
  · exact .inr least
  · left
    generalize shiftEq : (exponent - otherExponent -
      min (exponent - otherExponent)
        (max ((count.log2 + 1 + exponent) -
          (otherCount.log2 + 1 + otherExponent) - 53) (-1074))).toNat = shift
    have enough : 52 + (otherCount.log2 + 1) ≤ count.log2 + shift := by
      omega
    have many : 2 ^ 52 ≤ count <<< shift / otherCount := by
      rw [Nat.le_div_iff_mul_le otherPositive, Nat.shiftLeft_eq]
      calc 2 ^ 52 * otherCount
          ≤ 2 ^ 52 * 2 ^ (otherCount.log2 + 1) :=
            Nat.mul_le_mul_left _ Nat.lt_log2_self.le
        _ = 2 ^ (52 + (otherCount.log2 + 1)) := (pow_add ..).symm
        _ ≤ 2 ^ (count.log2 + shift) := Nat.pow_le_pow_right two_pos enough
        _ = 2 ^ count.log2 * 2 ^ shift := pow_add ..
        _ ≤ count * 2 ^ shift :=
            Nat.mul_le_mul_right _ (Nat.log2_self_le positive.ne')
    exact (Nat.le_log2 (lt_of_lt_of_le (by decide) many).ne').mpr many

private theorem unpacked_zero_div (some : other ≠ 0) :
    UnpackedFloat.div .binary64 (unpacked negative 0)
      (unpacked otherNegative other) =
        unpacked (negative ^^ otherNegative) 0 := by
  obtain ⟨positive, shape⟩ := unpacked_of_ne_zero otherNegative some
  have none : unpacked (negative ^^ otherNegative) 0 =
      .zero (signOf negative / signOf otherNegative) := by
    rw [signOf_div]
    rfl
  rw [shape, none]
  rfl

theorem unpacked_div (negative otherNegative : Bool) (bits : Nat)
    (some : other ≠ 0) :
    ∃ quotient, IsRounded quotient (grid bits / grid other) ∧
      UnpackedFloat.div .binary64 (unpacked negative bits)
        (unpacked otherNegative other) =
          unpacked (negative ^^ otherNegative) quotient := by
  by_cases zero : bits = 0
  · subst zero
    rw [grid_zero, zero_div]
    exact ⟨0, .zero, unpacked_zero_div some⟩
  · obtain ⟨positive, shape⟩ := unpacked_of_ne_zero negative zero
    obtain ⟨otherPositive, otherShape⟩ :=
      unpacked_of_ne_zero otherNegative some
    obtain ⟨q, shows, value⟩ := divCore_shows (unitCount bits)
      (unitIndex bits + leastExponent) (unitIndex other + leastExponent)
      otherPositive
    obtain ⟨quotient, rounded, same⟩ := roundWithAccuracy_eq
      (negative ^^ otherNegative) shows (divCore_long positive otherPositive)
    rw [value] at rounded
    refine ⟨quotient, rounded, ?_⟩
    rw [shape, otherShape, ← same, ← signOf_div]
    rfl

/-- A product is the double of the pattern to which the exact one is rounded. -/
theorem ofMagnitudeBits_mul (negative otherNegative : Bool)
    (few : bits < infinityBits) (otherFew : other < infinityBits) :
    ∃ product, IsRounded product (grid bits * grid other) ∧
      ofMagnitudeBits negative bits * ofMagnitudeBits otherNegative other =
        ofMagnitudeBits (negative ^^ otherNegative) product := by
  obtain ⟨product, isRounded, same⟩ :=
    unpacked_mul negative otherNegative bits other
  refine ⟨product, isRounded, ?_⟩
  rw [← ofModel_pack_unpacked _ product, ← same,
    ← unpack_ofMagnitudeBits _ few, ← unpack_ofMagnitudeBits _ otherFew]
  rfl

/-- A quotient is the double of the pattern to which the exact one is rounded. -/
theorem ofMagnitudeBits_div (negative otherNegative : Bool)
    (few : bits < infinityBits) (otherFew : other < infinityBits)
    (some : other ≠ 0) :
    ∃ quotient, IsRounded quotient (grid bits / grid other) ∧
      ofMagnitudeBits negative bits / ofMagnitudeBits otherNegative other =
        ofMagnitudeBits (negative ^^ otherNegative) quotient := by
  obtain ⟨quotient, isRounded, same⟩ :=
    unpacked_div negative otherNegative bits some
  refine ⟨quotient, isRounded, ?_⟩
  rw [← ofModel_pack_unpacked _ quotient, ← same,
    ← unpack_ofMagnitudeBits _ few, ← unpack_ofMagnitudeBits _ otherFew]
  rfl

end Operations

/-! ## Numbers that are out of range -/

/-- The number is rounded to a positive finite double: it is greater than half
the least one, and less than the middle between the greatest one and the number
that would follow it. -/
structure IsInRange (q : ℚ) : Prop where
  aboveZero : (2 ^ 1075)⁻¹ < q
  belowInfinity : q < 2 ^ 1024 - 2 ^ 970

theorem midpoint_last : midpoint (infinityBits - 1) = 2 ^ 1024 - 2 ^ 970 := by
  have index : unitIndex (infinityBits - 1) = 2045 := rfl
  have exponent : ((2045 : ℕ) : ℤ) + leastExponent = (971 : ℕ) := rfl
  have next := grid_succ (infinityBits - 1)
  have successor : infinityBits - 1 + 1 = infinityBits := rfl
  have step : unit 2045 = 2 * 2 ^ 970 := by
    rw [unit, exponent, zpow_natCast, pow_succ' _ 970]
  rw [successor, grid_infinityBits, index, step] at next
  rw [midpoint, index, step]
  generalize (2 : ℚ) ^ 1024 = top at next ⊢
  generalize (2 : ℚ) ^ 970 = half at next ⊢
  linarith

namespace IsRounded

variable {bits limit : Nat} {q : ℚ}

/-- The middle above an even pattern is rounded down. -/
theorem le_iff_of_even (rounded : IsRounded bits q) (even : Even limit) :
    bits ≤ limit ↔ q ≤ midpoint limit := by
  constructor
  · exact fun le => rounded.below.trans (midpoint_strictMono.monotone le)
  · intro atMost
    by_contra greater
    obtain ⟨lower, rfl⟩ : ∃ lower, bits = lower + 1 := ⟨bits - 1, by omega⟩
    have above := rounded.above lower rfl
    have le : midpoint limit ≤ midpoint lower :=
      midpoint_strictMono.monotone (by omega)
    have same : midpoint lower = q := by linarith
    have sameLimit : lower = limit :=
      midpoint_strictMono.injective (by linarith)
    have odd := rounded.aboveTie lower rfl same
    rw [sameLimit] at odd
    exact Nat.even_add_one.mp odd even

/-- The middle above an odd pattern is rounded up. -/
theorem le_iff_of_odd (rounded : IsRounded bits q) (odd : ¬ Even limit) :
    bits ≤ limit ↔ q < midpoint limit := by
  constructor
  · intro le
    have atMost : midpoint bits ≤ midpoint limit :=
      midpoint_strictMono.monotone le
    refine lt_of_le_of_ne (rounded.below.trans atMost) fun same => odd ?_
    have middle : q = midpoint bits := by
      have := rounded.below
      linarith
    have sameLimit : bits = limit :=
      midpoint_strictMono.injective (by linarith)
    rw [← sameLimit]
    exact rounded.belowTie middle
  · intro less
    by_contra greater
    obtain ⟨lower, rfl⟩ : ∃ lower, bits = lower + 1 := ⟨bits - 1, by omega⟩
    have le : midpoint limit ≤ midpoint lower :=
      midpoint_strictMono.monotone (by omega)
    have above := rounded.above lower rfl
    linarith

theorem pos_iff (rounded : IsRounded bits q) : 0 < bits ↔ (2 ^ 1075)⁻¹ < q := by
  rw [← midpoint_zero, ← not_le, ← not_le, rounded.le_iff_of_even ⟨0, rfl⟩]

theorem lt_infinityBits_iff (rounded : IsRounded bits q) :
    bits < infinityBits ↔ q < 2 ^ 1024 - 2 ^ 970 := by
  have odd : ¬ Even (infinityBits - 1) := by decide
  have successor : infinityBits - 1 + 1 = infinityBits := rfl
  rw [← midpoint_last, ← rounded.le_iff_of_odd odd]
  omega

theorem isInRange_iff (rounded : IsRounded bits q) :
    IsInRange q ↔ 0 < bits ∧ bits < infinityBits := by
  rw [rounded.pos_iff, rounded.lt_infinityBits_iff]
  exact ⟨fun range => ⟨range.1, range.2⟩, fun both => ⟨both.1, both.2⟩⟩

end IsRounded

end CurrencyPad.Binary64
