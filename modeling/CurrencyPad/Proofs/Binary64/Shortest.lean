import CurrencyPad.Proofs.Binary64.Nearest

/-!
# Shortest decimals of doubles

Seventeen digits tell any two doubles apart: the decimal of so many digits that
is nearest to a double reads back as it.  The shortest decimal of a finite double
therefore has at most seventeen digits and reads back.
-/

namespace CurrencyPad.Binary64

theorem log10Ratio_spec {numerator denominator : Nat}
    (numeratorPos : 0 < numerator) (denominatorPos : 0 < denominator) :
    (10 : ℚ) ^ log10Ratio numerator denominator ≤
        (numerator : ℚ) / denominator ∧
      (numerator : ℚ) / denominator <
        10 ^ (log10Ratio numerator denominator + 1) := by
  have dividend : (0 : ℚ) < numerator := by exact_mod_cast numeratorPos
  have divisor : (0 : ℚ) < denominator := by exact_mod_cast denominatorPos
  unfold log10Ratio
  split
  case isTrue atLeastOne =>
    have positive : 0 < numerator / denominator :=
      Nat.div_pos atLeastOne denominatorPos
    generalize quotientEq : numerator / denominator = quotient at positive
    have digit := Decimal.digitCount_pos quotient
    have start : (Decimal.digitCount quotient : ℤ) - 1 =
        ((Decimal.digitCount quotient - 1 : ℕ) : ℤ) := by
      omega
    have atLeast := Decimal.pow_digitCount_le positive
    have atMost := Decimal.lt_pow_digitCount quotient
    have least : 10 ^ (Decimal.digitCount quotient - 1) * denominator ≤
        numerator := by
      rwa [← Nat.le_div_iff_mul_le denominatorPos, quotientEq]
    have most : numerator <
        10 ^ Decimal.digitCount quotient * denominator := by
      rwa [← Nat.div_lt_iff_lt_mul denominatorPos, quotientEq]
    rw [sub_add_cancel, start, zpow_natCast, zpow_natCast,
      le_div_iff₀ divisor, div_lt_iff₀ divisor]
    exact ⟨by exact_mod_cast least, by exact_mod_cast most⟩
  case isFalse lessThanOne =>
    generalize quotientEq :
      (denominator + numerator - 1) / numerator - 1 = quotient
    have bounds : quotient * numerator < denominator ∧
        denominator ≤ (quotient + 1) * numerator ∧ 0 < quotient := by
      have division := Nat.div_add_mod (denominator + numerator - 1) numerator
      have rest := Nat.mod_lt (denominator + numerator - 1) numeratorPos
      have several : 2 ≤ (denominator + numerator - 1) / numerator := by
        rw [Nat.le_div_iff_mul_le numeratorPos]
        omega
      have split : (denominator + numerator - 1) / numerator =
          quotient + 1 := by
        omega
      rw [split, Nat.mul_comm, Nat.add_mul, Nat.one_mul] at division
      rw [Nat.add_mul, Nat.one_mul]
      omega
    obtain ⟨below, above, positive⟩ := bounds
    have digit := Decimal.digitCount_pos quotient
    have finish : -(Decimal.digitCount quotient : ℤ) + 1 =
        -((Decimal.digitCount quotient - 1 : ℕ) : ℤ) := by
      omega
    have least : denominator ≤ 10 ^ Decimal.digitCount quotient * numerator :=
      above.trans (Nat.mul_le_mul_right numerator
        (Decimal.lt_pow_digitCount quotient))
    have most : 10 ^ (Decimal.digitCount quotient - 1) * numerator <
        denominator :=
      lt_of_le_of_lt (Nat.mul_le_mul_right numerator
        (Decimal.pow_digitCount_le positive)) below
    rw [finish, zpow_neg, zpow_neg, zpow_natCast, zpow_natCast,
      le_div_iff₀ divisor, div_lt_iff₀ divisor, inv_mul_le_iff₀ (by positivity),
      lt_inv_mul_iff₀ (by positivity)]
    exact ⟨by exact_mod_cast least, by exact_mod_cast most⟩

theorem ratio_spec (parts : Parts) :
    0 < parts.ratio.2 ∧
      (parts.ratio.1 : ℚ) / parts.ratio.2 =
        parts.significand * 2 ^ parts.exponent := by
  unfold Parts.ratio
  split
  case isTrue nonneg =>
    have power : (2 : ℚ) ^ parts.exponent = 2 ^ parts.exponent.toNat := by
      rw [← zpow_natCast, Int.toNat_of_nonneg nonneg]
    refine ⟨Nat.one_pos, ?_⟩
    rw [power, Nat.pow_eq]
    push_cast
    exact div_one _
  case isFalse negative =>
    have power : (2 : ℚ) ^ parts.exponent =
        (2 ^ (-parts.exponent).toNat)⁻¹ := by
      rw [← zpow_natCast, Int.toNat_of_nonneg (by omega), zpow_neg, inv_inv]
    refine ⟨Nat.pow_pos (by decide), ?_⟩
    rw [power, Nat.pow_eq]
    push_cast
    rfl

/-- The neighbours of a ratio in the order in which they are tried: the first
one is nearest to it, and neither is beyond a whole number of units above it. -/
theorem neighbours_spec (negative : Bool) (numerator : Nat) {denominator : Nat}
    (positive : 0 < denominator) (exponent : ℤ) :
    ∃ nearer farther : Nat,
      neighbours negative numerator denominator exponent =
          [⟨negative, nearer, exponent⟩, ⟨negative, farther, exponent⟩] ∧
        |(nearer : ℚ) - (numerator : ℚ) / denominator / 10 ^ exponent| ≤
          1 / 2 ∧
        ∀ bound : Nat,
          (numerator : ℚ) / denominator / 10 ^ exponent < bound →
            nearer ≤ bound ∧ farther ≤ bound := by
  obtain ⟨n, d, scaled, scaledPos, value⟩ : ∃ n d : Nat,
      (if 0 ≤ exponent then
          (numerator, denominator * Nat.pow 10 exponent.toNat)
        else (numerator * Nat.pow 10 (-exponent).toNat, denominator)) =
          (n, d) ∧
        0 < d ∧
        (n : ℚ) / d = (numerator : ℚ) / denominator / 10 ^ exponent := by
    by_cases nonneg : 0 ≤ exponent
    · refine ⟨_, _, if_pos nonneg,
        Nat.mul_pos positive (Nat.pow_pos (by decide)), ?_⟩
      rw [Decimal.ten_zpow_of_nonneg nonneg, div_div, Nat.pow_eq]
      push_cast
      rfl
    · refine ⟨_, _, if_neg nonneg, positive, ?_⟩
      have power : (10 : ℚ) ^ exponent =
          (((10 ^ (-exponent).toNat : ℕ) : ℚ))⁻¹ := by
        rw [← Decimal.ten_zpow_of_nonneg (by omega), zpow_neg, inv_inv]
      rw [power, div_inv_eq_mul, div_mul_eq_mul_div, Nat.pow_eq]
      push_cast
      rfl
  obtain ⟨⟨above, below⟩, _⟩ := Decimal.divideHalfEven_spec n scaledPos
  have divisor : (0 : ℚ) < d := by exact_mod_cast scaledPos
  have either : Decimal.divideHalfEven n d = n / d ∨
      Decimal.divideHalfEven n d = n / d + 1 := by
    unfold Decimal.divideHalfEven
    dsimp only
    split
    · exact .inl rfl
    · split
      · exact .inr rfl
      · have parity := Nat.mod_lt (n / d) (by decide : 0 < 2)
        omega
  have near : |(Decimal.divideHalfEven n d : ℚ) - (n : ℚ) / d| ≤ 1 / 2 :=
    abs_le.mpr ⟨by linarith, by linarith⟩
  have bounded : ∀ bound : Nat, (n : ℚ) / d < bound → n / d + 1 ≤ bound := by
    intro bound less
    rw [div_lt_iff₀ divisor] at less
    have product : n < bound * d := by exact_mod_cast less
    exact (Nat.div_lt_iff_lt_mul scaledPos).mpr product
  rw [← value]
  unfold neighbours
  rw [scaled]
  dsimp only
  split
  case isTrue isBelow =>
    refine ⟨n / d, n / d + 1, rfl, isBelow ▸ near, fun bound less => ?_⟩
    have atMost := bounded bound less
    omega
  case isFalse isAbove =>
    have sameAbove := either.resolve_left isAbove
    refine ⟨n / d + 1, n / d, rfl, sameAbove ▸ near, fun bound less => ?_⟩
    have atMost := bounded bound less
    omega

/-- Half a unit in the seventeenth digit is less than the distance to the
midpoints around a double. -/
theorem isRounded_of_seventeen_digits {bits : Nat} {top : ℤ} {d : Decimal}
    (reaches : (10 : ℚ) ^ top ≤ grid bits)
    (places : d.exponent = top - 16)
    (near : |(d.coefficient : ℚ) - grid bits / 10 ^ (top - 16)| ≤ 1 / 2) :
    IsRounded bits d.size := by
  have positive := Decimal.ten_zpow_pos (top - 16)
  have shift : (10 : ℚ) ^ top = 10 ^ 16 * 10 ^ (top - 16) := by
    rw [← zpow_natCast, ← zpow_add₀ (by norm_num)]
    congr 1
    push_cast
    ring
  have distance : |d.size - grid bits| ≤ 10 ^ (top - 16) / 2 := by
    have product : d.size - grid bits =
        ((d.coefficient : ℚ) - grid bits / 10 ^ (top - 16)) *
          10 ^ (top - 16) := by
      rw [Decimal.size, places, sub_mul, div_mul_cancel₀ _ positive.ne']
    rw [product, abs_mul, abs_of_pos positive]
    linarith [mul_le_mul_of_nonneg_right near positive.le]
  obtain ⟨lower, upper⟩ := abs_le.mp distance
  rw [shift] at reaches
  generalize (10 : ℚ) ^ (top - 16) = step at positive reaches lower upper
  refine .of_lt (fun previous isPrevious => ?_) ?_
  · obtain ⟨_, few, _⟩ := bits_eq_index_add_count previous
    have count : (unitCount previous : ℚ) + 1 ≤ 2 ^ 53 := by
      exact_mod_cast few
    have unitPos := unit_pos (unitIndex previous)
    have most : grid bits ≤ 2 ^ 53 * unit (unitIndex previous) := by
      rw [isPrevious, grid_succ, grid]
      linarith [mul_le_mul_of_nonneg_right count unitPos.le]
    have next := grid_succ previous
    rw [← isPrevious] at next
    unfold midpoint
    linarith
  · obtain ⟨_, few, _⟩ := bits_eq_index_add_count bits
    have count : (unitCount bits : ℚ) < 2 ^ 53 := by exact_mod_cast few
    have unitPos := unit_pos (unitIndex bits)
    have most : grid bits < 2 ^ 53 * unit (unitIndex bits) :=
      mul_lt_mul_of_pos_right count unitPos
    unfold midpoint
    linarith

/-- Decimals of one sign and one value become the same double. -/
theorem ofDecimal_congr {d e : Decimal} (sign : d.negative = e.negative)
    (size : d.size = e.size) : ofDecimal d = ofDecimal e := by
  obtain ⟨bits, rounded⟩ := exists_isRounded d.size_nonneg
  rw [ofDecimal_eq rounded, ofDecimal_eq (size ▸ rounded), sign]

theorem readsBack_iff {x : Float} {d : Decimal} :
    readsBack x d = true ↔ ofDecimal d = x := by
  unfold readsBack
  rw [beq_iff_eq, Float.toBits_inj]

/-- Counted in units that many places below its first digit, a number is less
than the power of ten one place higher. -/
private theorem div_zpow_lt {number : ℚ} {top : ℤ}
    (most : number < 10 ^ (top + 1)) (count : ℕ) :
    number / 10 ^ (top - count) < ((10 ^ (count + 1) : ℕ) : ℚ) := by
  have power : (10 : ℚ) ^ (top + 1) =
      10 ^ (count + 1) * 10 ^ (top - count) := by
    rw [← zpow_natCast, ← zpow_add₀ (by norm_num)]
    congr 1
    push_cast
    ring
  rw [div_lt_iff₀ (Decimal.ten_zpow_pos _), Nat.cast_pow, Nat.cast_ofNat,
    ← power]
  exact most

/-- The search finds a decimal of at most seventeen digits that reads back. -/
theorem shortestOfParts_spec (negative : Bool) {bits : Nat}
    (some : 0 < bits) :
    let x := ofMagnitudeBits negative bits
    let d := shortestOfParts x
      ⟨negative, unitCount bits, unitIndex bits + leastExponent⟩
    d.coefficient < 10 ^ 17 ∧ ofDecimal d = x := by
  dsimp only
  generalize partsEq : (⟨negative, unitCount bits,
    unitIndex bits + leastExponent⟩ : Parts) = parts
  have sign : parts.negative = negative := by rw [← partsEq]
  obtain ⟨denominatorPos, value⟩ := ratio_spec parts
  have gridEq : (parts.ratio.1 : ℚ) / parts.ratio.2 = grid bits := by
    rw [value, ← partsEq]
    rfl
  have gridPos : 0 < grid bits := by
    rw [← grid_zero]
    exact grid_strictMono some
  have numeratorPos : 0 < parts.ratio.1 := by
    by_contra none
    have zero : parts.ratio.1 = 0 := by omega
    rw [← gridEq, zero, Nat.cast_zero, zero_div] at gridPos
    exact lt_irrefl _ gridPos
  obtain ⟨least, most⟩ := log10Ratio_spec numeratorPos denominatorPos
  have search := fun exponent => neighbours_spec parts.negative
    parts.ratio.1 denominatorPos exponent
  unfold shortestOfParts
  dsimp only
  rw [gridEq] at least most search
  generalize log10Ratio parts.ratio.1 parts.ratio.2 = top at least most ⊢
  cases found : (List.range sufficientDigits).findSome? fun (count : Nat) =>
      (neighbours parts.negative parts.ratio.1 parts.ratio.2
        (top - count)).find? (readsBack (ofMagnitudeBits negative bits)) with
  | none =>
      -- The nearest decimal of seventeen digits is among those tried.
      have missed := List.findSome?_eq_none_iff.mp found 16 (by decide)
      obtain ⟨nearer, farther, tried, near, _⟩ := search (top - (16 : ℕ))
      have rounded : IsRounded bits
          (⟨parts.negative, nearer, top - (16 : ℕ)⟩ : Decimal).size :=
        isRounded_of_seventeen_digits least rfl near
      have back : readsBack (ofMagnitudeBits negative bits)
          ⟨parts.negative, nearer, top - (16 : ℕ)⟩ = true := by
        rw [readsBack_iff, ofDecimal_eq rounded, sign]
      rw [tried, List.find?_cons_of_pos back] at missed
      cases missed
  | some d =>
      obtain ⟨count, inRange, isFound⟩ := List.exists_of_findSome?_eq_some found
      obtain ⟨nearer, farther, tried, _, bounded⟩ := search (top - count)
      have back := readsBack_iff.mp (List.find?_some isFound)
      have member := List.mem_of_find?_eq_some isFound
      have fewDigits : count < 17 := List.mem_range.mp inRange
      obtain ⟨nearerLe, fartherLe⟩ := bounded _ (div_zpow_lt most count)
      have grown : 10 ^ (count + 1) ≤ 10 ^ 17 :=
        Nat.pow_le_pow_right (by decide) fewDigits
      have small : d.coefficient ≤ 10 ^ 17 := by
        rw [tried] at member
        rcases List.mem_pair.mp member with rfl | rfl
        · exact nearerLe.trans grown
        · exact fartherLe.trans grown
      rw [Option.getD_some]
      refine ⟨Decimal.coefficient_reduced_lt (by decide) small, ?_⟩
      rw [← back]
      exact ofDecimal_congr (Decimal.negative_reduced d)
        (Decimal.size_reduced d)

/-- The shortest decimal of a finite double has at most seventeen digits and
reads back as the double. -/
theorem toDecimal_spec {x : Float} (finite : x.isFinite = true) :
    ∃ d, toDecimal x = .finite d ∧ d.coefficient < 10 ^ 17 ∧
      ofDecimal d = x := by
  obtain ⟨negative, bits, few, rfl⟩ := exists_eq_ofMagnitudeBits finite
  unfold toDecimal
  rw [parts?_ofMagnitudeBits few]
  dsimp only
  by_cases zero : bits = 0
  · subst zero
    exact ⟨⟨negative, 0, 0⟩, rfl, Nat.pow_pos (by decide), rfl⟩
  · have some : unitCount bits ≠ 0 := by
      intro none
      unfold unitCount unitIndex at none
      omega
    rw [if_neg some]
    exact ⟨_, rfl, shortestOfParts_spec negative (Nat.pos_of_ne_zero zero)⟩

end CurrencyPad.Binary64
