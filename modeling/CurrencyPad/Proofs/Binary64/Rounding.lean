import CurrencyPad.Proofs.Binary64.Grid
import CurrencyPad.Proofs.Decimal.HalfEven

/-!
# Rounding to doubles

The bit pattern that is computed for a ratio is the one to which the ratio is
rounded.  A decimal becomes the double of the pattern to which its value is
rounded, also where its magnitude alone decides.
-/

namespace CurrencyPad.Binary64

theorem scaleRatio_spec (numerator : Nat) {denominator : Nat}
    (positive : 0 < denominator) (exponent : ℤ) :
    let scaled := scaleRatio numerator denominator exponent
    0 < scaled.2 ∧
      (scaled.1 : ℚ) / scaled.2 =
        (numerator : ℚ) / denominator / 2 ^ exponent := by
  unfold scaleRatio
  dsimp only
  split
  case isTrue nonneg =>
    refine ⟨Nat.mul_pos positive (Nat.pow_pos (by decide)), ?_⟩
    have power : (2 : ℚ) ^ exponent = 2 ^ exponent.toNat := by
      rw [← zpow_natCast, Int.toNat_of_nonneg nonneg]
    rw [power, div_div, Nat.pow_eq]
    push_cast
    rfl
  case isFalse negative =>
    refine ⟨positive, ?_⟩
    have power : (2 : ℚ) ^ exponent = (2 ^ (-exponent).toNat)⁻¹ := by
      rw [← zpow_natCast, Int.toNat_of_nonneg (by omega), zpow_neg, inv_inv]
    rw [power, div_inv_eq_mul, Nat.pow_eq, div_mul_eq_mul_div]
    push_cast
    rfl

/-- A positive ratio lies between the power of two that is found for it and the
next. -/
theorem log2Ratio_spec {numerator denominator : Nat}
    (numeratorPos : 0 < numerator) (denominatorPos : 0 < denominator) :
    (2 : ℚ) ^ log2Ratio numerator denominator ≤
        (numerator : ℚ) / denominator ∧
      (numerator : ℚ) / denominator <
        2 ^ (log2Ratio numerator denominator + 1) := by
  have bounds : ∀ {n : Nat}, 0 < n →
      (2 : ℚ) ^ (n.log2 : ℤ) ≤ n ∧ (n : ℚ) < 2 ^ ((n.log2 : ℤ) + 1) := by
    intro n positive
    have least := Nat.log2_self_le positive.ne'
    have most := @Nat.lt_log2_self n
    constructor
    · rw [zpow_natCast]
      exact_mod_cast least
    · have next : ((n.log2 : ℤ) + 1) = ((n.log2 + 1 : ℕ) : ℤ) := by
        push_cast
        rfl
      rw [next, zpow_natCast]
      exact_mod_cast most
  obtain ⟨numeratorLeast, numeratorMost⟩ := bounds numeratorPos
  obtain ⟨denominatorLeast, denominatorMost⟩ := bounds denominatorPos
  have divisor : (0 : ℚ) < denominator := by exact_mod_cast denominatorPos
  unfold log2Ratio
  dsimp only
  generalize guessEq : ((numerator.log2 : ℤ) - denominator.log2) = guess
  obtain ⟨scaledPos, scaled⟩ :=
    scaleRatio_spec numerator denominatorPos guess
  have power : (0 : ℚ) < 2 ^ guess := by positivity
  have scaledDivisor : (0 : ℚ) <
      (scaleRatio numerator denominator guess).2 := by
    exact_mod_cast scaledPos
  have reached :
      (scaleRatio numerator denominator guess).2 ≤
          (scaleRatio numerator denominator guess).1 ↔
        (2 : ℚ) ^ guess ≤ (numerator : ℚ) / denominator := by
    rw [← one_le_div₀ power, ← scaled, one_le_div₀ scaledDivisor,
      Nat.cast_le]
  have product : (2 : ℚ) ^ guess * 2 ^ (denominator.log2 : ℤ) =
      2 ^ (numerator.log2 : ℤ) := by
    rw [← zpow_add₀ (by norm_num), ← guessEq, sub_add_cancel]
  split
  case isTrue reaches =>
    refine ⟨reached.mp reaches, ?_⟩
    rw [div_lt_iff₀ divisor]
    rw [zpow_add₀ (by norm_num), zpow_one] at numeratorMost ⊢
    have atLeast : (2 : ℚ) ^ guess * 2 ^ (denominator.log2 : ℤ) ≤
        2 ^ guess * denominator :=
      mul_le_mul_of_nonneg_left denominatorLeast power.le
    linarith
  case isFalse misses =>
    rw [sub_add_cancel]
    refine ⟨?_, not_le.mp (mt reached.mpr misses)⟩
    rw [le_div_iff₀ divisor, zpow_sub₀ (by norm_num), zpow_one]
    rw [zpow_add₀ (by norm_num), zpow_one] at denominatorMost
    have atMost : (2 : ℚ) ^ guess * denominator ≤
        2 ^ guess * (2 ^ (denominator.log2 : ℤ) * 2) :=
      mul_le_mul_of_nonneg_left denominatorMost.le power.le
    linarith

/-- The neighbour below has another unit where a binade begins. -/
private theorem midpoint_lower {index count lower : Nat} (few : count ≤ 2 ^ 53)
    (many : index = 0 ∨ 2 ^ 52 ≤ count)
    (isLower : index * 2 ^ 52 + count = lower + 1) :
    (index ≠ 0 ∧ count = 2 ^ 52) ∨
      midpoint lower = ((count : ℚ) - 1 / 2) * unit index := by
  by_cases first : index ≠ 0 ∧ count = 2 ^ 52
  · exact .inl first
  · right
    have lowerEq : lower = index * 2 ^ 52 + (count - 1) := by omega
    have sameIndex : unitIndex lower = index := by
      rw [lowerEq]
      exact unitIndex_eq (by omega) (by omega)
    rw [midpoint, sameIndex, lowerEq, grid_eq (by omega) (by omega),
      Nat.cast_sub (by omega)]
    push_cast
    ring

private theorem midpoint_count {index count : Nat} (few : count ≤ 2 ^ 53)
    (many : index = 0 ∨ 2 ^ 52 ≤ count) :
    count = 2 ^ 53 ∨
      midpoint (index * 2 ^ 52 + count) =
        ((count : ℚ) + 1 / 2) * unit index := by
  by_cases last : count = 2 ^ 53
  · exact .inl last
  · right
    rw [midpoint, grid_eq few many, unitIndex_eq (by omega) many]
    ring

/-- A count of units that is at most a half unit away from a number of its
binade is one of that binade, or the first of the next. -/
theorem count_of_binade {index count : Nat} {q : ℚ}
    (above : ((count : ℚ) - 1 / 2) * unit index ≤ q)
    (below : q ≤ ((count : ℚ) + 1 / 2) * unit index)
    (binade : index = 0 ∨ 2 ^ 52 * unit index ≤ q)
    (binadeEnd : q < 2 ^ 53 * unit index) :
    count ≤ 2 ^ 53 ∧ (index = 0 ∨ 2 ^ 52 ≤ count) := by
  have positive := unit_pos index
  constructor
  · have bound : ((count : ℚ) - 1 / 2) * unit index < 2 ^ 53 * unit index :=
      lt_of_le_of_lt above binadeEnd
    have strict := lt_of_mul_lt_mul_right bound positive.le
    have cast : (count : ℚ) < ((2 ^ 53 + 1 : ℕ) : ℚ) := by
      push_cast
      linarith
    have := Nat.cast_lt.mp cast
    omega
  · refine binade.imp_right fun start => ?_
    have bound : 2 ^ 52 * unit index ≤ ((count : ℚ) + 1 / 2) * unit index :=
      start.trans below
    have least := le_of_mul_le_mul_right bound positive
    have cast : ((2 ^ 52 : ℕ) : ℚ) < ((count + 1 : ℕ) : ℚ) := by
      push_cast
      linarith
    have := Nat.cast_lt.mp cast
    omega

/-- A count of units that is at most a half unit away from a number of its
binade. -/
theorem isRounded_of_count {index count : Nat} {q : ℚ}
    (above : ((count : ℚ) - 1 / 2) * unit index ≤ q)
    (below : q ≤ ((count : ℚ) + 1 / 2) * unit index)
    (tie : ((count : ℚ) - 1 / 2) * unit index = q ∨
      q = ((count : ℚ) + 1 / 2) * unit index → Even count)
    (binade : index = 0 ∨ 2 ^ 52 * unit index ≤ q)
    (binadeEnd : q < 2 ^ 53 * unit index) :
    IsRounded (index * 2 ^ 52 + count) q := by
  obtain ⟨few, many⟩ := count_of_binade above below binade binadeEnd
  have even : Even count → Even (index * 2 ^ 52 + count) := by
    intro evenCount
    rw [Nat.even_iff] at evenCount ⊢
    omega
  have value := grid_eq few many
  have lowerCases : ∀ lower, index * 2 ^ 52 + count = lower + 1 →
      midpoint lower < q ∨
        midpoint lower = ((count : ℚ) - 1 / 2) * unit index := by
    intro lower isLower
    refine (midpoint_lower few many isLower).imp_left fun first => ?_
    have start := binade.resolve_left first.1
    have next := midpoint_lt_grid_succ lower
    have firstCount : (count : ℚ) = 2 ^ 52 := by exact_mod_cast first.2
    rw [← isLower, value, firstCount] at next
    linarith
  have upperCases : q < midpoint (index * 2 ^ 52 + count) ∨
      midpoint (index * 2 ^ 52 + count) =
        ((count : ℚ) + 1 / 2) * unit index := by
    refine (midpoint_count few many).imp_left fun last => ?_
    have next := grid_lt_midpoint (index * 2 ^ 52 + count)
    have lastCount : (count : ℚ) = 2 ^ 53 := by exact_mod_cast last
    rw [value, lastCount] at next
    linarith
  refine ⟨fun lower isLower => ?_, fun lower isLower same => ?_, ?_,
    fun same => ?_⟩
  · rcases lowerCases lower isLower with less | equal
    · exact less.le
    · rw [equal]
      exact above
  · rcases lowerCases lower isLower with less | equal
    · exact absurd same less.ne
    · exact even (tie (.inl (equal.symm.trans same)))
  · rcases upperCases with less | equal
    · exact less.le
    · rw [equal]
      exact below
  · rcases upperCases with less | equal
    · exact absurd same less.ne
    · exact even (tie (.inr (same.trans equal)))

theorem isRounded_nearestBits (numerator : Nat) {denominator : Nat}
    (positive : 0 < denominator) :
    IsRounded (nearestBits numerator denominator)
      ((numerator : ℚ) / denominator) := by
  unfold nearestBits
  split
  case isTrue zero =>
    simpa [zero] using IsRounded.zero
  case isFalse nonzero =>
    dsimp only
    obtain ⟨least, most⟩ :=
      log2Ratio_spec (Nat.pos_of_ne_zero nonzero) positive
    have exponentEq : unitExponent numerator denominator =
        max leastExponent (log2Ratio numerator denominator - 52) := rfl
    generalize log2Ratio numerator denominator = power
      at least most exponentEq
    generalize unitExponent numerator denominator = exponent at exponentEq
    have leastEq : leastExponent = -1074 := rfl
    obtain ⟨scaledPos, scaled⟩ := scaleRatio_spec numerator positive exponent
    generalize (numerator : ℚ) / denominator = q at least most scaled
    obtain ⟨⟨above, below⟩, tie⟩ := Decimal.divideHalfEven_spec
      (scaleRatio numerator denominator exponent).1 scaledPos
    have unitEq : unit (exponent - leastExponent).toNat = 2 ^ exponent := by
      unfold unit
      rw [Int.toNat_of_nonneg (by omega), sub_add_cancel]
    have unitPos : (0 : ℚ) < 2 ^ exponent := by positivity
    rw [scaled] at above below tie
    refine isRounded_of_count ?_ ?_ (fun onTie => tie ?_) ?_ ?_
    · rwa [unitEq, ← le_div_iff₀ unitPos]
    · rwa [unitEq, ← div_le_iff₀ unitPos]
    · rwa [unitEq, ← eq_div_iff unitPos.ne', ← div_eq_iff unitPos.ne']
        at onTie
    · by_cases lowest : exponent = leastExponent
      · left
        omega
      · right
        have start : (2 : ℚ) ^ 52 * 2 ^ exponent = 2 ^ power := by
          rw [← zpow_natCast, ← zpow_add₀ (by norm_num)]
          congr 1
          push_cast
          omega
        rw [unitEq, start]
        exact least
    · have last : (2 : ℚ) ^ (power + 1) ≤ 2 ^ 53 * 2 ^ exponent := by
        rw [← zpow_natCast, ← zpow_add₀ (by norm_num)]
        refine zpow_le_zpow_right₀ (by norm_num) ?_
        push_cast
        omega
      rw [unitEq]
      exact lt_of_lt_of_le most last

end CurrencyPad.Binary64
