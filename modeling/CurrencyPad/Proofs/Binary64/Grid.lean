import CurrencyPad.Binary64.Nearest
import Mathlib.Algebra.Order.Field.Power
import Mathlib.Algebra.Order.Field.Rat
import Mathlib.Order.Monotone.Basic
import Mathlib.Tactic.Linarith
import Mathlib.Tactic.NormNum
import Mathlib.Tactic.Positivity
import Mathlib.Tactic.Ring

/-!
# The grid of doubles

The bit patterns of nonnegative doubles ascend with the numbers that they stand
for.  Beyond the pattern of infinity they are taken to go on with ever greater
exponents, so that every number lies between two of them.  A number is rounded to
a pattern if it lies between the midpoints to the two neighbours, and on a
midpoint only if the pattern is even.
-/

namespace CurrencyPad.Binary64

/-- The unit in which significands are counted, by its index; the first two
binades share the least one. -/
def unit (index : Nat) : ℚ :=
  2 ^ ((index : ℤ) + leastExponent)

def unitIndex (bits : Nat) : Nat :=
  bits / 2 ^ 52 - 1

def unitCount (bits : Nat) : Nat :=
  bits - unitIndex bits * 2 ^ 52

/-- The number that a bit pattern stands for. -/
def grid (bits : Nat) : ℚ :=
  unitCount bits * unit (unitIndex bits)

theorem unit_pos (index : Nat) : 0 < unit index := by
  unfold unit
  positivity

theorem unit_succ (index : Nat) : unit (index + 1) = 2 * unit index := by
  unfold unit
  have next : ((index + 1 : Nat) : ℤ) + leastExponent =
      1 + ((index : ℤ) + leastExponent) := by
    push_cast
    ring
  rw [next, zpow_add₀ (by norm_num), zpow_one]

/-- Every bit pattern is a multiple of a binade and a count of units. -/
theorem bits_eq_index_add_count (bits : Nat) :
    bits = unitIndex bits * 2 ^ 52 + unitCount bits ∧
      unitCount bits < 2 ^ 53 ∧
      (unitIndex bits = 0 ∨ 2 ^ 52 ≤ unitCount bits) := by
  unfold unitCount unitIndex
  omega

theorem unitIndex_eq {index count : Nat} (few : count < 2 ^ 53)
    (many : index = 0 ∨ 2 ^ 52 ≤ count) :
    unitIndex (index * 2 ^ 52 + count) = index := by
  unfold unitIndex
  omega

/-- The last count of a binade may also be the first of the next. -/
theorem grid_eq {index count : Nat} (few : count ≤ 2 ^ 53)
    (many : index = 0 ∨ 2 ^ 52 ≤ count) :
    grid (index * 2 ^ 52 + count) = count * unit index := by
  rcases Nat.lt_or_eq_of_le few with fewer | last
  · have sameIndex := unitIndex_eq fewer many
    have sameCount : unitCount (index * 2 ^ 52 + count) = count := by
      unfold unitCount
      rw [sameIndex, Nat.add_sub_cancel_left]
    rw [grid, sameIndex, sameCount]
  · have nextIndex : unitIndex (index * 2 ^ 52 + count) = index + 1 := by
      unfold unitIndex
      omega
    have firstCount : unitCount (index * 2 ^ 52 + count) = 2 ^ 52 := by
      unfold unitCount
      rw [nextIndex]
      omega
    rw [grid, nextIndex, firstCount, unit_succ, last]
    push_cast
    ring

@[simp]
theorem grid_zero : grid 0 = 0 := by
  simp [grid, unitCount]

theorem grid_succ (bits : Nat) :
    grid (bits + 1) = grid bits + unit (unitIndex bits) := by
  obtain ⟨same, few, many⟩ := bits_eq_index_add_count bits
  have next : bits + 1 = unitIndex bits * 2 ^ 52 + (unitCount bits + 1) := by
    omega
  have value : grid bits = unitCount bits * unit (unitIndex bits) := rfl
  rw [next, grid_eq (by omega) (by omega), value]
  push_cast
  ring

theorem grid_strictMono : StrictMono grid := by
  refine strictMono_nat_of_lt_succ fun bits => ?_
  rw [grid_succ]
  exact lt_add_of_pos_right _ (unit_pos _)

theorem grid_nonneg (bits : Nat) : 0 ≤ grid bits := by
  rw [← grid_zero]
  exact grid_strictMono.monotone (Nat.zero_le bits)

def midpoint (bits : Nat) : ℚ :=
  grid bits + unit (unitIndex bits) / 2

theorem grid_lt_midpoint (bits : Nat) : grid bits < midpoint bits :=
  lt_add_of_pos_right _ (half_pos (unit_pos _))

theorem midpoint_lt_grid_succ (bits : Nat) :
    midpoint bits < grid (bits + 1) := by
  have positive := unit_pos (unitIndex bits)
  rw [grid_succ, midpoint]
  linarith

theorem midpoint_strictMono : StrictMono midpoint := by
  refine strictMono_nat_of_lt_succ fun bits => ?_
  exact (midpoint_lt_grid_succ bits).trans (grid_lt_midpoint (bits + 1))

/-- The number is rounded to the bit pattern: it lies between the midpoints to
both neighbours, and on one of them only if the pattern is even. -/
structure IsRounded (bits : Nat) (q : ℚ) : Prop where
  above : ∀ lower, bits = lower + 1 → midpoint lower ≤ q
  aboveTie : ∀ lower, bits = lower + 1 → midpoint lower = q → Even bits
  below : q ≤ midpoint bits
  belowTie : q = midpoint bits → Even bits

namespace IsRounded

variable {bits other : Nat} {q r : ℚ}

/-- Greater numbers are rounded to greater patterns. -/
theorem le_of_le (rounded : IsRounded bits q) (otherRounded : IsRounded other r)
    (le : q ≤ r) : bits ≤ other := by
  by_contra greater
  obtain ⟨lower, isLower⟩ : ∃ lower, bits = lower + 1 :=
    ⟨bits - 1, by omega⟩
  have midpoints : midpoint other ≤ midpoint lower :=
    midpoint_strictMono.monotone (by omega)
  have lowerBound := rounded.above lower isLower
  have upperBound := otherRounded.below
  -- Both numbers are the midpoint between two patterns that are both even.
  have onLower : midpoint lower = q := by linarith
  have onUpper : r = midpoint other := by linarith
  have same : lower = other :=
    midpoint_strictMono.injective (by linarith)
  have even := rounded.aboveTie lower isLower onLower
  have otherEven := otherRounded.belowTie onUpper
  rw [isLower, same] at even
  exact Nat.even_add_one.mp even otherEven

theorem unique (rounded : IsRounded bits q) (otherRounded : IsRounded other q) :
    bits = other :=
  le_antisymm (rounded.le_of_le otherRounded le_rfl)
    (otherRounded.le_of_le rounded le_rfl)

/-- What lies strictly between the midpoints is rounded to the pattern. -/
theorem of_lt (above : ∀ lower, bits = lower + 1 → midpoint lower < q)
    (below : q < midpoint bits) : IsRounded bits q where
  above lower isLower := (above lower isLower).le
  aboveTie lower isLower same := absurd same (above lower isLower).ne
  below := below.le
  belowTie same := absurd same below.ne

theorem grid_self (bits : Nat) : IsRounded bits (grid bits) := by
  refine of_lt (fun lower isLower => ?_) (grid_lt_midpoint bits)
  rw [isLower]
  exact midpoint_lt_grid_succ lower

theorem zero : IsRounded 0 0 := by
  have self := grid_self 0
  rwa [grid_zero] at self

/-- No pattern is nearer to a number than that to which it is rounded, and an
equally near one is odd. -/
theorem abs_sub_le (rounded : IsRounded bits q) (other : Nat) :
    |grid bits - q| ≤ |grid other - q| ∧
      (|grid bits - q| = |grid other - q| → other ≠ bits → Even bits) := by
  rcases Nat.lt_trichotomy other bits with less | same | greater
  · obtain ⟨lower, isLower⟩ : ∃ lower, bits = lower + 1 :=
      ⟨bits - 1, by omega⟩
    have lowerBound := rounded.above lower isLower
    have atMost : grid other ≤ grid lower :=
      grid_strictMono.monotone (by omega)
    have next := grid_succ lower
    have positive := unit_pos (unitIndex lower)
    rw [← isLower] at next
    unfold midpoint at lowerBound
    have distance : |grid other - q| = q - grid other := by
      rw [abs_sub_comm]
      exact abs_of_nonneg (by linarith)
    rw [distance]
    refine ⟨abs_le.mpr ⟨by linarith, by linarith⟩, fun tie _ => ?_⟩
    refine rounded.aboveTie lower isLower (le_antisymm lowerBound ?_)
    have far : q - grid other ≤ grid bits - q := by
      rcases abs_cases (grid bits - q) with ⟨value, _⟩ | ⟨value, _⟩
      · linarith
      · linarith
    unfold midpoint
    linarith
  · rw [same]
    exact ⟨le_rfl, fun _ different => absurd rfl different⟩
  · have upperBound := rounded.below
    have atLeast : grid (bits + 1) ≤ grid other :=
      grid_strictMono.monotone greater
    have next := grid_succ bits
    have positive := unit_pos (unitIndex bits)
    unfold midpoint at upperBound
    have distance : |grid other - q| = grid other - q :=
      abs_of_nonneg (by linarith)
    rw [distance]
    refine ⟨abs_le.mpr ⟨by linarith, by linarith⟩, fun tie _ => ?_⟩
    refine rounded.belowTie (le_antisymm upperBound ?_)
    have far : grid other - q ≤ q - grid bits := by
      rcases abs_cases (grid bits - q) with ⟨value, _⟩ | ⟨value, _⟩
      · linarith
      · linarith
    unfold midpoint
    linarith

end IsRounded

end CurrencyPad.Binary64
