import CurrencyPad.Proofs.Binary64.Order
import CurrencyPad.Proofs.Number.Rounded

/-!
# Units of abbreviated amounts

Rounding shows a thousand of a unit only where there is no larger one.  A
thousand of an amount without a unit is shown as well: amounts short of the
smallest unit are rounded without a look at the result.
-/

namespace CurrencyPad

namespace Money

open Number

theorem reaches_finite_iff (limit : Nat) (d : Decimal) :
    reaches limit (.finite d) = true ↔ (limit : ℚ) ≤ d.size := by
  unfold reaches Decimal.size
  dsimp only
  by_cases whole : 0 ≤ d.exponent
  · rw [if_pos whole, decide_eq_true_eq, Decimal.ten_zpow_of_nonneg whole]
    norm_cast
  · have power : (10 : ℚ) ^ d.exponent =
        ((10 ^ (-d.exponent).toNat : ℕ) : ℚ)⁻¹ := by
      rw [← Decimal.ten_zpow_of_nonneg (by omega), zpow_neg, inv_inv]
    have positive : (0 : ℚ) < (10 ^ (-d.exponent).toNat : ℕ) := by
      positivity
    rw [if_neg whole, decide_eq_true_eq, power, ← div_eq_mul_inv,
      le_div_iff₀ positive]
    norm_cast

/-- Numbers below a thousand are rounded to a thousand from 999.995 on. -/
theorem halfUp_lt_thousand_iff {q : ℚ} (nonneg : 0 ≤ q) :
    halfUp shortPlaces q < 1000 ↔ q < 199999 / 200 := by
  have unit : (0 : ℚ) < 10 ^ shortPlaces := by
    positivity
  have count : (1000 : ℚ) * 10 ^ shortPlaces = (100000 : ℤ) := by
    norm_num [shortPlaces]
  rw [halfUp_of_nonneg shortPlaces nonneg, div_lt_iff₀ unit, count,
    Int.cast_lt, round_eq, Int.floor_lt, shortPlaces]
  constructor <;> intro less <;> push_cast at * <;> linarith

theorem toNat_toBits_scale_lt {unit : AmountUnit}
    (member : unit ∈ AmountUnit.all) :
    (Float.ofNat unit.scale).toBits.toNat < Binary64.infinityBits := by
  have each : ∀ unit ∈ AmountUnit.all,
      (Float.ofNat unit.scale).toBits.toNat < Binary64.infinityBits := by
    decide +kernel
  exact each unit member

/-- An amount is far less than a thousand of a unit that it does not reach. -/
theorem size_lt_of_not_reached {x : Binary64.Finite} {unit : AmountUnit}
    (member : unit ∈ AmountUnit.all)
    (short : ¬ Float.ofNat unit.scale ≤ x.value.abs) {shown : Decimal}
    (counted : inUnit x.value unit = .finite shown) : shown.size < 1000 := by
  have few := toNat_toBits_scale_lt member
  obtain ⟨exact, isDecimal, rfl⟩ := roundExtended_eq_finite counted
  obtain ⟨negative, bits, same, less⟩ :=
    Binary64.exists_lt_of_not_le x.isFinite few short
  rw [same, ← Binary64.ofMagnitudeBits_toBits few] at isDecimal
  have small := Binary64.size_div_lt less few isDecimal
  rw [Decimal.size_rounded_eq, halfUp_lt_thousand_iff exact.size_nonneg]
  linarith

theorem grid_thousand :
    Binary64.grid (Float.ofNat 1000).toBits.toNat = 1000 := by
  have parts : (Float.ofNat 1000).toBits.toNat =
      1031 * 2 ^ 52 + 1000 * 2 ^ 43 := by
    decide +kernel
  rw [parts, Binary64.grid_eq (by decide) (by decide), Binary64.unit,
    Binary64.leastExponent]
  norm_num

/-- An amount that does not reach the smallest unit shows a number below a
thousand. -/
theorem size_lt_thousand {x : Binary64.Finite}
    (short : ¬ Float.ofNat 1000 ≤ x.value.abs) {exact : Decimal}
    (isDecimal : Binary64.toDecimal x.value = .finite exact) :
    exact.size < 1000 := by
  have smallest : (⟨1000, 'k'⟩ : AmountUnit) ∈ AmountUnit.all := by
    decide
  have few := toNat_toBits_scale_lt smallest
  obtain ⟨negative, bits, same, less⟩ :=
    Binary64.exists_lt_of_not_le x.isFinite few short
  rw [same] at isDecimal
  rw [← grid_thousand]
  exact Binary64.size_lt_grid (less.trans few) isDecimal less

/-- The chosen unit shows less than a thousand, or it is one that the amount
does not reach, or there is no larger one. -/
theorem chosen_cases {x : Float} {larger : Option AmountUnit}
    {units : List AmountUnit} {unit : AmountUnit}
    (skipped : ∀ next ∈ larger, ¬ Float.ofNat next.scale ≤ x.abs)
    (chosen : chooseUnit? x larger units = some unit) :
    reaches 1000 (inUnit x unit) = false ∨
      ¬ Float.ofNat unit.scale ≤ x.abs ∨
        larger = none ∧ units.head? = some unit := by
  induction units generalizing larger with
  | nil =>
      cases chosen
  | cons candidate smaller inductionHypothesis =>
      rw [chooseUnit?] at chosen
      by_cases reached : Float.ofNat candidate.scale ≤ x.abs
      · rw [if_pos reached] at chosen
        by_cases large : reaches 1000 (inUnit x candidate) = true
        · rw [if_pos large] at chosen
          cases larger with
          | none =>
              exact .inr (.inr ⟨rfl, chosen⟩)
          | some next =>
              cases chosen
              exact .inr (.inl (skipped next rfl))
        · rw [if_neg large] at chosen
          cases chosen
          exact .inl (Bool.eq_false_of_not_eq_true large)
      · rw [if_neg reached] at chosen
        have later := inductionHypothesis
          (by rintro next ⟨⟩; exact reached) chosen
        rcases later with few | short | ⟨none, _⟩
        · exact .inl few
        · exact .inr (.inl short)
        · cases none

theorem not_reached_of_none {x : Float} {larger : Option AmountUnit}
    {units : List AmountUnit} (none : chooseUnit? x larger units = none) :
    ∀ unit ∈ units, ¬ Float.ofNat unit.scale ≤ x.abs := by
  induction units generalizing larger with
  | nil =>
      simp
  | cons candidate smaller inductionHypothesis =>
      rw [chooseUnit?] at none
      by_cases reached : Float.ofNat candidate.scale ≤ x.abs
      · rw [if_pos reached] at none
        split at none <;> cases none
      · rw [if_neg reached] at none
        exact List.forall_mem_cons.mpr ⟨reached, inductionHypothesis none⟩

/-- An amount is counted in the unit of a letter, or in none. -/
inductive IsCountedIn (x : Float) : Text → Decimal → Prop where
  | unit {unit : AmountUnit} {shown : Decimal} (member : unit ∈ AmountUnit.all)
      (counted : inUnit x unit = .finite shown) :
      IsCountedIn x [unit.letter] shown
  | bare {shown : Decimal}
      (rounded : roundExtended x shortPlaces = .finite shown) :
      IsCountedIn x [] shown

/-- Before a letter other than that of the largest unit stands a number below a
thousand.  Amounts are shown without a letter only where they do not reach a
thousand, and then those from 999.995 on are rounded to it. -/
theorem counted_of_isAbbreviated {config : Config} {money : Money}
    (abbreviated : isAbbreviated config money = true) :
    ∃ letter exact shown,
      Binary64.toDecimal money.amount.value = .finite exact ∧
      IsCountedIn money.amount.value letter shown ∧
      (format config true money).amount =
        plain config.locale false shown ++ letter ∧
      (letter ≠ [] → letter ≠ ['t'] → shown.size < 1000) ∧
      (letter = [] → ¬ (1000 : Float) ≤ money.amount.value.abs ∧
        shown.size ≤ 1000 ∧
          (shown.size < 1000 ↔ exact.size < 199999 / 200)) := by
  have isShort : (format config true money).amount =
      shortText config.locale money.amount.value := by
    show compactText config money = _
    rw [compactText, abbreviated, if_pos rfl]
  obtain ⟨exact, isDecimal, _⟩ :=
    Binary64.toDecimal_spec money.amount.isFinite
  rw [isShort, shortText]
  cases chosen : chooseUnit? money.amount.value none AmountUnit.all with
  | some unit =>
      have member := (mem_of_chooseUnit?_eq_some chosen).resolve_left
        (Option.some_ne_none unit ·.symm)
      obtain ⟨shown, counted, _⟩ := inUnit_spec money.amount member
      refine ⟨[unit.letter], exact, shown, isDecimal, .unit member counted,
        ?_, fun _ notLargest => ?_, (absurd · (List.cons_ne_nil _ _))⟩
      · dsimp only
        rw [counted]
        rfl
      · rcases chosen_cases (by rintro next ⟨⟩) chosen with
          few | short | ⟨_, largest⟩
        · rw [counted] at few
          have below := mt (reaches_finite_iff 1000 shown).mpr
            (Bool.eq_false_iff.mp few)
          exact_mod_cast not_le.mp below
        · exact size_lt_of_not_reached member short counted
        · cases largest
          exact absurd rfl notLargest
  | none =>
      have short := not_reached_of_none chosen ⟨1000, 'k'⟩ (by decide)
      have below := size_lt_thousand short isDecimal
      have rounded : roundExtended money.amount.value shortPlaces =
          .finite (exact.rounded shortPlaces) := by
        rw [roundExtended, isDecimal]
      refine ⟨[], exact, exact.rounded shortPlaces, isDecimal, .bare rounded,
        ?_, absurd rfl, fun _ => ⟨short, ?_, ?_⟩⟩
      · dsimp only
        rw [rounded, List.append_nil]
        rfl
      · rw [Decimal.size_rounded_eq]
        apply (halfUp_mono shortPlaces below.le).trans_eq
        exact halfUp_of_isMultiple ⟨100000, by norm_num [shortPlaces]⟩
      · rw [Decimal.size_rounded_eq]
        exact halfUp_lt_thousand_iff exact.size_nonneg

/-- With this threshold amounts are abbreviated that do not reach a unit. -/
def lowThreshold : Config :=
  { Config.default with
    shortenThreshold := 1
    thresholdPositive := by decide }

theorem counted_of_isAbbreviated_million :
    let money : Money := ⟨⟨-999999.5, by decide +kernel⟩, "USD".toList⟩
    isAbbreviated lowThreshold money = true ∧
      ∃ shown : Decimal, (format lowThreshold true money).amount =
          plain lowThreshold.locale false shown ++ ['m'] ∧
        shown.size < 1000 := by
  intro money
  have abbreviated : isAbbreviated lowThreshold money = true := by
    decide +kernel
  have isText : (format lowThreshold true money).amount = "-1m".toList := by
    decide +kernel
  obtain ⟨letter, exact, shown, _, counted, same, few, _⟩ :=
    counted_of_isAbbreviated abbreviated
  have last := congrArg List.getLast? (isText.symm.trans same)
  refine ⟨abbreviated, shown, ?_⟩
  cases counted with
  | bare rounded =>
      obtain ⟨c, isLast, digit⟩ :=
        isAsciiDigit_getLast?_plain lowThreshold.locale false shown
      rw [List.append_nil, isLast] at last
      cases last
      exact absurd digit (by decide)
  | unit member counted =>
      rw [List.getLast?_concat] at last
      have isLetter := Option.some.inj last
      rw [← isLetter] at same few
      exact ⟨same, few (by decide) (by decide)⟩

/-- An amount that does not reach the smallest unit is shown as a thousand where
that unit is the next larger one. -/
theorem thousand_without_unit :
    ∃ (config : Config) (money : Money) (shown : Decimal),
      isAbbreviated config money = true ∧
      (format config true money).amount = plain config.locale false shown ∧
      (format config true money).amount = "1000".toList ∧
      shown.size = 1000 :=
  ⟨lowThreshold, ⟨⟨999.996, by decide +kernel⟩, "USD".toList⟩,
    ⟨false, 100000, -2⟩, by decide +kernel, by decide +kernel,
    by decide +kernel, by norm_num [Decimal.size]⟩

end Money

end CurrencyPad
