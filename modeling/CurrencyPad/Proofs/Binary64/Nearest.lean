import CurrencyPad.Proofs.Binary64.Equality
import CurrencyPad.Proofs.Binary64.Finite
import CurrencyPad.Proofs.Binary64.Rounding

/-!
# Nearest doubles

What a finite double stands for, and what it means that it is the nearest one to
a number.  A decimal becomes the double that is nearest to its value.
-/

namespace CurrencyPad.Binary64

theorem exists_isRounded {q : ℚ} (nonneg : 0 ≤ q) :
    ∃ bits, IsRounded bits q := by
  have rounded := isRounded_nearestBits q.num.toNat q.den_pos
  have numerator : (q.num.toNat : ℚ) = q.num := by
    have same : ((q.num.toNat : ℤ) : ℚ) = q.num := by
      rw [Int.toNat_of_nonneg (Rat.num_nonneg.mpr nonneg)]
    exact_mod_cast same
  rw [numerator, Rat.num_div_den] at rounded
  exact ⟨_, rounded⟩

theorem grid_infinityBits : grid infinityBits = 2 ^ 1024 := by
  have parts : infinityBits = 2046 * 2 ^ 52 + 2 ^ 52 := rfl
  rw [parts, grid_eq (by decide) (by decide), unit]
  have exponent : ((2046 : ℕ) : ℤ) + leastExponent = (972 : ℕ) := rfl
  rw [exponent, zpow_natCast, Nat.cast_pow, Nat.cast_ofNat, ← pow_add]

theorem ofMagnitudeBits_of_infinityBits_le {negative : Bool} {bits : Nat}
    (beyond : infinityBits ≤ bits) :
    ofMagnitudeBits negative bits = infinity negative := by
  unfold infinity ofMagnitudeBits
  rw [Nat.min_eq_right beyond, Nat.min_self]

/-- Numbers from the `309`th power of ten on are infinite. -/
private theorem infinityBits_le_of_isRounded {bits : Nat} {q : ℚ}
    (rounded : IsRounded bits q) (large : (10 : ℚ) ^ greatestMagnitude ≤ q) :
    infinityBits ≤ bits := by
  refine (IsRounded.grid_self infinityBits).le_of_le rounded ?_
  have bound : (2 : ℚ) ^ 1024 ≤ 10 ^ greatestMagnitude := by
    have power : (10 : ℚ) ^ greatestMagnitude = 10 ^ 309 := zpow_natCast _ 309
    have whole : 2 ^ 1024 ≤ 10 ^ 309 := by decide +kernel
    rw [power]
    exact_mod_cast whole
  rw [grid_infinityBits]
  exact bound.trans large

theorem lt_infinityBits_of_isFinite {negative : Bool} {bits : Nat}
    (finite : (ofMagnitudeBits negative bits).isFinite = true) :
    bits < infinityBits := by
  by_contra beyond
  rw [ofMagnitudeBits_of_infinityBits_le (not_lt.mp beyond)] at finite
  revert finite
  cases negative <;> decide

/-- Numbers up to the `17`th power of ten are finite. -/
theorem lt_infinityBits_of_le {bits : Nat} {q : ℚ}
    (rounded : IsRounded bits q) (small : q ≤ 10 ^ 17) :
    bits < infinityBits := by
  have value : grid (1084 * 2 ^ 52 + 2 ^ 52) = 2 ^ 62 := by
    have exponent : ((1084 : ℕ) : ℤ) + leastExponent = (10 : ℕ) := rfl
    rw [grid_eq (by decide) (by decide), unit, exponent, zpow_natCast,
      Nat.cast_pow, Nat.cast_ofNat, ← pow_add]
  have atMost := rounded.le_of_le
    (IsRounded.grid_self (1084 * 2 ^ 52 + 2 ^ 52)) (by
      rw [value]
      exact small.trans (by norm_num))
  exact lt_of_le_of_lt atMost (by decide)

theorem midpoint_zero : midpoint 0 = (2 ^ 1075)⁻¹ := by
  have exponent : ((0 : ℕ) : ℤ) + leastExponent = -((1074 : ℕ) : ℤ) := rfl
  have index : unitIndex 0 = 0 := rfl
  rw [midpoint, grid_zero, zero_add, index, unit, exponent, zpow_neg,
    zpow_natCast, pow_succ _ 1074, mul_inv, div_eq_mul_inv]

/-- Numbers below the power of ten `-325` are zero. -/
private theorem isRounded_zero_of_lt {q : ℚ}
    (small : q < (10 : ℚ) ^ leastMagnitude) : IsRounded 0 q := by
  refine .of_lt nofun (small.trans ?_)
  have power : (10 : ℚ) ^ leastMagnitude = (10 ^ 325)⁻¹ := by
    have exponent : leastMagnitude = -((325 : ℕ) : ℤ) := rfl
    rw [exponent, zpow_neg, zpow_natCast]
  rw [power, midpoint_zero]
  have whole : 2 ^ 1075 < 10 ^ 325 := by decide +kernel
  exact inv_strictAnti₀ (by positivity) (by exact_mod_cast whole)

/-- A decimal becomes the double of the pattern to which its value is rounded,
or infinity. -/
theorem ofDecimal_eq {d : Decimal} {bits : Nat}
    (rounded : IsRounded bits d.size) :
    ofDecimal d = ofMagnitudeBits d.negative bits := by
  unfold ofDecimal
  split
  case isTrue zero =>
    have none : d.size = 0 := by
      simp [Decimal.size, zero]
    rw [none] at rounded
    rw [IsRounded.zero.unique rounded]
  case isFalse nonzero =>
    obtain ⟨least, most⟩ := Decimal.size_bounds nonzero
    split
    case isTrue large =>
      refine (ofMagnitudeBits_of_infinityBits_le ?_).symm
      refine infinityBits_le_of_isRounded rounded (le_trans ?_ least)
      exact zpow_le_zpow_right₀ (by norm_num) large.le
    case isFalse =>
      split
      case isTrue small =>
        have zero : IsRounded 0 d.size := by
          refine isRounded_zero_of_lt (lt_of_lt_of_le most ?_)
          exact zpow_le_zpow_right₀ (by norm_num) (by omega)
        rw [zero.unique rounded]
      case isFalse =>
        split
        case isTrue whole =>
          have value : d.size =
              ((d.coefficient * Nat.pow 10 d.exponent.toNat : ℕ) : ℚ) /
                (1 : ℕ) := by
            rw [Decimal.size, Decimal.ten_zpow_of_nonneg whole, Nat.pow_eq]
            push_cast
            ring
          rw [value] at rounded
          rw [nearest, rounded.unique (isRounded_nearestBits _ Nat.one_pos)]
        case isFalse places =>
          have power : (10 : ℚ) ^ d.exponent =
              (((10 ^ (-d.exponent).toNat : ℕ) : ℚ))⁻¹ := by
            rw [← Decimal.ten_zpow_of_nonneg (by omega), zpow_neg, inv_inv]
          have value : d.size = (d.coefficient : ℚ) /
              (Nat.pow 10 (-d.exponent).toNat : ℕ) := by
            rw [Decimal.size, power, div_eq_mul_inv, Nat.pow_eq]
          rw [value] at rounded
          rw [nearest, rounded.unique
            (isRounded_nearestBits _ (Nat.pow_pos (by decide)))]

def Parts.toRat (parts : Parts) : ℚ :=
  (if parts.negative then -1 else 1) *
    (parts.significand * 2 ^ parts.exponent)

namespace Finite

/-- The number that a finite double stands for. -/
def toRat (x : Finite) : ℚ :=
  ((parts? x.value).map Parts.toRat).getD 0

def significand (x : Finite) : Nat :=
  ((parts? x.value).map Parts.significand).getD 0

/-- No finite double is nearer to the number, and if another one is equally near,
the significand is even. -/
structure IsNearest (x : Finite) (q : ℚ) : Prop where
  closest : ∀ y : Finite, |x.toRat - q| ≤ |y.toRat - q|
  tie : ∀ y : Finite, y.toRat ≠ x.toRat →
    |x.toRat - q| = |y.toRat - q| → Even x.significand

variable {x : Finite} {negative : Bool} {bits : Nat}

theorem toRat_eq (few : bits < infinityBits)
    (same : x.value = ofMagnitudeBits negative bits) :
    x.toRat = if negative then -grid bits else grid bits := by
  rw [toRat, same, parts?_ofMagnitudeBits few, Option.map_some,
    Option.getD_some, Parts.toRat, grid, unit]
  split
  · exact neg_one_mul _
  · exact one_mul _

theorem significand_eq (few : bits < infinityBits)
    (same : x.value = ofMagnitudeBits negative bits) :
    x.significand = unitCount bits := by
  rw [significand, same, parts?_ofMagnitudeBits few, Option.map_some,
    Option.getD_some]

private theorem abs_signed_sub (negative : Bool) (left right : ℚ) :
    |(if negative then -left else left) -
      (if negative then -right else right)| = |left - right| := by
  split
  · rw [neg_sub_neg, abs_sub_comm]
  · rfl

private theorem abs_signed_sub_of_ne {sign other : Bool} (differ : sign ≠ other)
    {left right : ℚ} (leftNonneg : 0 ≤ left) (rightNonneg : 0 ≤ right) :
    |(if sign then -left else left) - (if other then -right else right)| =
      left + right := by
  have sum : |left + right| = left + right :=
    abs_of_nonneg (add_nonneg leftNonneg rightNonneg)
  cases sign <;> cases other
  case false.false => exact absurd rfl differ
  case false.true =>
    simp only [Bool.false_eq_true, if_false, if_true]
    rw [sub_neg_eq_add, sum]
  case true.false =>
    simp only [Bool.false_eq_true, if_false, if_true]
    rw [← neg_add', abs_neg, sum]
  case true.true => exact absurd rfl differ

/-- The double of the pattern to which the value of a decimal is rounded is
nearest to the decimal. -/
theorem isNearest_of_isRounded {d : Decimal} (few : bits < infinityBits)
    (same : x.value = ofMagnitudeBits d.negative bits)
    (rounded : IsRounded bits d.size) : x.IsNearest d.toRat := by
  have value := toRat_eq few same
  have sizeNonneg := d.size_nonneg
  have ownDistance : |x.toRat - d.toRat| = |grid bits - d.size| := by
    rw [value, Decimal.toRat, abs_signed_sub]
  -- A double of the other sign is at least as far away as zero.
  have others : ∀ y : Finite, ∃ other,
      |grid other - d.size| ≤ |y.toRat - d.toRat| ∧
        (|grid bits - d.size| = |y.toRat - d.toRat| →
          y.toRat ≠ x.toRat →
          other ≠ bits ∧ |grid bits - d.size| = |grid other - d.size|) := by
    intro y
    obtain ⟨sign, other, otherFew, otherSame⟩ :=
      exists_eq_ofMagnitudeBits y.isFinite
    have otherValue := toRat_eq otherFew otherSame
    by_cases sameSign : sign = d.negative
    · refine ⟨other, ?_, fun tie different => ⟨?_, ?_⟩⟩
      · rw [otherValue, Decimal.toRat, sameSign, abs_signed_sub]
      · rintro rfl
        exact different (by rw [otherValue, value, sameSign])
      · rw [tie, otherValue, Decimal.toRat, sameSign, abs_signed_sub]
    · have gridNonneg := grid_nonneg other
      have distance : |y.toRat - d.toRat| = grid other + d.size := by
        rw [otherValue, Decimal.toRat]
        exact abs_signed_sub_of_ne sameSign gridNonneg sizeNonneg
      have zeroDistance : |grid 0 - d.size| = d.size := by
        rw [grid_zero, zero_sub, abs_neg, abs_of_nonneg sizeNonneg]
      rw [distance]
      refine ⟨0, by linarith, fun tie different => ?_⟩
      have atMost := (rounded.abs_sub_le 0).1
      have none : grid other = 0 := by linarith
      refine ⟨?_, by linarith⟩
      rintro rfl
      refine different ?_
      rw [otherValue, value, none, grid_zero]
      simp
  refine ⟨fun y => ?_, fun y different tie => ?_⟩
  · obtain ⟨other, atMost, _⟩ := others y
    rw [ownDistance]
    exact (rounded.abs_sub_le other).1.trans atMost
  · obtain ⟨other, _, equal⟩ := others y
    rw [ownDistance] at tie
    obtain ⟨otherNe, distances⟩ := equal tie different
    have even := (rounded.abs_sub_le other).2 distances otherNe
    obtain ⟨parts, _⟩ := bits_eq_index_add_count bits
    rw [significand_eq few same]
    rw [Nat.even_iff] at even ⊢
    omega

private theorem toRat_of_isZero (isZero : (x.value == 0) = true) :
    x.toRat = 0 ∧ x.significand = 0 := by
  have value : ∃ negative, x.value = ofMagnitudeBits negative 0 := by
    obtain ⟨_, _, same | ⟨_, negated⟩ | ⟨same, _⟩⟩ :=
      Float.beq_iff_ne_nan_and_eq.mp isZero
    · exact ⟨false, same.trans (Float.toBits_inj.mp (by decide))⟩
    · exact absurd negated (by decide)
    · exact ⟨true, same.trans (Float.toBits_inj.mp (by decide))⟩
  obtain ⟨negative, same⟩ := value
  rw [toRat_eq (by decide) same, significand_eq (by decide) same, grid_zero]
  exact ⟨by simp, rfl⟩

theorem IsNearest.withoutNegativeZero {q : ℚ} (nearest : x.IsNearest q) :
    x.withoutNegativeZero.IsNearest q := by
  unfold Finite.withoutNegativeZero
  split
  case isTrue isZero =>
    obtain ⟨value, count⟩ := toRat_of_isZero isZero
    obtain ⟨zeroValue, zeroCount⟩ :=
      toRat_of_isZero (x := zero) (by decide)
    refine ⟨fun y => ?_, fun y different tie => ?_⟩
    · rw [zeroValue, ← value]
      exact nearest.closest y
    · rw [zeroValue, ← value] at different tie
      rw [zeroCount, ← count]
      exact nearest.tie y different tie
  case isFalse =>
    exact nearest

theorem withoutNegativeZero_beq (x : Finite) :
    (x.withoutNegativeZero == x) = true := by
  unfold Finite.withoutNegativeZero
  split
  case isTrue isZero =>
    have symmetric : ((0 : Float) == x.value) = true := BEq.symm isZero
    exact symmetric
  case isFalse =>
    exact beq_self x

end Finite

end CurrencyPad.Binary64
